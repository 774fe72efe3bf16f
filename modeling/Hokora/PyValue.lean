import Mathlib.Data.Rat.Defs
import Hokora.BigEndian

/-!
# Wire values and exceptions

What msgpack yields and what Python's operators do to it. Floats are rationals with infinities and
NaN.
-/
namespace Hokora.PyValue
open BigEndian

inductive FloatVal where
  | fin (q : ℚ)
  | nan
  | posInf
  | negInf
  deriving DecidableEq

inductive Val where
  | none
  | bool (b : Bool)
  | int (i : ℤ)
  | float (x : FloatVal)
  | str (s : String)
  | bytes (b : Bytes)
  | list (l : List Val)
  | dict (d : List (String × Val))
  deriving Inhabited

/-- Bytes where the model has text (a key of a dictionary, a cell of a text column): the
noncharacter U+10FFFF, then one character for each byte. Text that starts with that noncharacter is
not told apart from them. -/
def blobText (b : Bytes) : String :=
  String.ofList (Char.ofNat 0x10FFFF :: b.map fun c => Char.ofNat c.toNat)

inductive HokoraError where
  | messageError
  | permissionDenied
  | rateLimitExceeded
  | syncError
  | federationError
  | sealedChannelError
  | epochError
  | mediaError
  deriving DecidableEq

inductive PyError where
  | attributeError
  | typeError
  | valueError
  | overflowError
  | structError
  | integrityError
  | interfaceError
  | databaseError
  | noResultFound
  | cryptoError
  | transportError
  | osError
  | hokora (cls : HokoraError) (text : String)
  deriving DecidableEq

def PyError.text : PyError → String
  | .hokora _ text => text
  | _ => ""

abbrev Py := Except PyError

variable {A B : Type} {x : Py A} {f : A → Py B}

lemma bind_eq_ok {b : B} : (x >>= f) = .ok b ↔ ∃ a, x = .ok a ∧ f a = .ok b := by
  cases x with
  | error e => simp [bind,Except.bind]
  | ok a => simp [bind,Except.bind]

lemma bind_ok {b : B} (h : (x >>= f) = .ok b) : ∃ a, x = .ok a ∧ f a = .ok b := bind_eq_ok.mp h

lemma map_eq_ok {f : A → B} {b : B} : x.map f = .ok b ↔ ∃ a, x = .ok a ∧ f a = b := by
  cases x with
  | error e => simp [Except.map]
  | ok a => simp [Except.map]

@[simp] lemma ok_bind {a : A} : ((Except.ok a : Py A) >>= f) = f a := rfl

@[simp] lemma error_bind {e : PyError} : ((Except.error e : Py A) >>= f) = .error e := rfl

lemma toOption_eq_some {a : A} : x.toOption = some a ↔ x = .ok a := by
  cases x with
  | error e => simp [Except.toOption]
  | ok b => simp [Except.toOption]

lemma toOption_isSome : x.toOption.isSome ↔ ∃ a, x = .ok a := by
  simp [Option.isSome_iff_exists,toOption_eq_some]

namespace Val

def truthy : Val → Bool
  | .none => false
  | .bool b => b
  | .int i => i ≠ 0
  | .float x => x ≠ .fin 0
  | .str s => s ≠ ""
  | .bytes b => b ≠ []
  | .list l => !l.isEmpty
  | .dict d => !d.isEmpty

def get (v : Val) (k : String) (dflt : Val) : Py Val :=
  match v with
  | .dict d => .ok ((d.lookup k).getD dflt)
  | _ => .error .attributeError

def len : Val → Py ℕ
  | .str s => .ok s.length
  | .bytes b => .ok b.length
  | .list l => .ok l.length
  | .dict d => .ok d.length
  | _ => .error .typeError

def lenOrZero (v : Val) : Py ℕ := if v.truthy then v.len else .ok 0

def iter : Val → Py (List Val)
  | .list l => .ok l
  | .dict d => .ok (d.map fun kv => .str kv.1)
  | .str s => .ok (s.toList.map fun c => .str (String.singleton c))
  | .bytes b => .ok (b.map fun c => .int c.toNat)
  | _ => .error .typeError

def take (v : Val) (n : ℕ) : Py Val :=
  match v with
  | .str s => .ok (.str (String.ofList (s.toList.take n)))
  | .bytes b => .ok (.bytes (b.take n))
  | .list l => .ok (.list (l.take n))
  | _ => .error .typeError

def or (v w : Val) : Val := if v.truthy then v else w

def num? : Val → Option FloatVal
  | .bool b => some (.fin (if b then 1 else 0))
  | .int i => some (.fin i)
  | .float x => some x
  | _ => Option.none

def int? : Val → Option ℤ
  | .bool b => some (if b then 1 else 0)
  | .int i => some i
  | _ => Option.none

def ofStr? : Option String → Val
  | Option.none => .none
  | some s => .str s

def ofBytes? : Option Bytes → Val
  | Option.none => .none
  | some b => .bytes b

@[simp] lemma truthy_str {s : String} : (Val.str s).truthy = decide (s ≠ "") := rfl

end Val

def FloatVal.lt : FloatVal → FloatVal → Bool
  | .nan, _ => false
  | _, .nan => false
  | .fin p, .fin q => p < q
  | .negInf, .negInf => false
  | .negInf, _ => true
  | _, .negInf => false
  | .posInf, _ => false
  | _, .posInf => true

lemma lookup_assign {V : Type} {d : List (String × V)} {k j : String} {v : V} :
    (if (d.lookup k).isSome then d.map fun e => if e.1 = k then (k, v) else e
      else d ++ [(k, v)]).lookup j = if j = k then some v else d.lookup j := by
  have hc : ∀ (e : String × V) (d : List (String × V)) (j : String),
      (e :: d).lookup j = if j = e.1 then some e.2 else d.lookup j := by
    rintro ⟨x,w⟩ d j
    by_cases hj : j = x
    · simp [hj]
    · simp [List.lookup_cons,hj,beq_false_of_ne hj]
  have hm : (d.map fun e => if e.1 = k then (k, v) else e).lookup j =
      if j = k then (d.lookup k).map fun _ => v else d.lookup j := by
    induction d with
    | nil => simp
    | cons e d ih =>
      rw [List.map_cons,hc,hc,hc,ih]
      by_cases he : e.1 = k
      · subst he
        by_cases hj : j = e.1 <;> simp [hj]
      have hk : k ≠ e.1 := Ne.symm he
      by_cases hj : j = k
      · simp [hj,he,hk]
      · simp [hj,he]
  split_ifs with ho hj hj
  · obtain ⟨w,hw⟩ := Option.isSome_iff_exists.mp ho
    rw [hm,if_pos hj,hw,Option.map_some]
  · rw [hm,if_neg hj]
  · rw [List.lookup_append,hj,Option.not_isSome_iff_eq_none.mp ho,hc,if_pos rfl]
    rfl
  · rw [List.lookup_append,hc,if_neg hj]
    simp

def hexDigit (c : Char) : Option ℕ :=
  if '0' ≤ c ∧ c ≤ '9' then some (c.toNat - '0'.toNat)
  else if 'a' ≤ c ∧ c ≤ 'f' then some (c.toNat - 'a'.toNat + 10)
  else if 'A' ≤ c ∧ c ≤ 'F' then some (c.toNat - 'A'.toNat + 10)
  else none

def fromHexChars : List Char → Option Bytes
  | [] => some []
  | [c] => if c.isWhitespace then some [] else none
  | c :: d :: cs =>
    if c.isWhitespace then fromHexChars (d :: cs)
    else
      match hexDigit c, hexDigit d with
      | some x, some y => (fromHexChars cs).map fun bs => UInt8.ofNat (16 * x + y) :: bs
      | _, _ => none

def fromHex : Val → Py Bytes
  | .str s =>
    match fromHexChars s.toList with
    | some bs => .ok bs
    | none => .error .valueError
  | _ => .error .typeError

end Hokora.PyValue
