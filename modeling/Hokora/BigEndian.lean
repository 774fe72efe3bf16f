import Mathlib.Algebra.Group.Nat.Defs
import Mathlib.Tactic.Common
import Mathlib.Data.List.Induction

/-!
# Big-endian words and fields of fixed width

Words are lists of bytes; a field is a slice at an offset.
-/
namespace Hokora.BigEndian

open List
abbrev Bytes := List UInt8

def bytesBE : ℕ → ℕ → Bytes
  | 0, _ => []
  | w + 1, n => bytesBE w (n / 256) ++ [UInt8.ofNat (n % 256)]

def natBE (bs : Bytes) : ℕ := bs.foldl (fun a b => 256 * a + b.toNat) 0

def pack (w n : ℕ) : Option Bytes := if n < 256 ^ w then some (bytesBE w n) else none

@[simp] lemma length_bytesBE (w n : ℕ) : (bytesBE w n).length = w := by
  induction w generalizing n with
  | zero => rfl
  | succ w ih => simp [bytesBE,ih]

lemma natBE_concat (bs : Bytes) (b : UInt8) : natBE (bs ++ [b]) = 256 * natBE bs + b.toNat := by
  simp [natBE,foldl_append]

lemma natBE_bytesBE (w n : ℕ) (h : n < 256 ^ w) : natBE (bytesBE w n) = n := by
  induction w generalizing n with
  | zero =>
    have hn : n = 0 := by simpa using h
    subst hn
    rfl
  | succ w ih =>
    have hd : n / 256 < 256 ^ w := by
      rw [Nat.pow_succ] at h
      exact Nat.div_lt_of_lt_mul (by rwa [Nat.mul_comm] at h)
    have hb : (UInt8.ofNat (n % 256)).toNat = n % 256 := by
      rw [UInt8.toNat_ofNat']
      omega
    rw [bytesBE,natBE_concat,ih _ hd,hb]
    omega

variable {bs : Bytes}

lemma natBE_lt : natBE bs < 256 ^ bs.length := by
  induction bs using List.reverseRecOn with
  | nil => simp [natBE]
  | append_singleton bs b ih =>
    have hb := b.toNat_lt
    rw [natBE_concat,length_append,length_singleton,Nat.pow_succ]
    omega

lemma bytesBE_natBE (bs : Bytes) : bytesBE bs.length (natBE bs) = bs := by
  induction bs using List.reverseRecOn with
  | nil => rfl
  | append_singleton bs b ih =>
    have hb := b.toNat_lt
    have hd : (256 * natBE bs + b.toNat) / 256 = natBE bs := by omega
    have hm : (256 * natBE bs + b.toNat) % 256 = b.toNat := by omega
    rw [natBE_concat,length_append,length_singleton,bytesBE,hd,hm,ih,UInt8.ofNat_toNat]

variable {n : ℕ}

lemma pack_eq_some {w : ℕ} : pack w n = some bs ↔ n < 256 ^ w ∧ bs = bytesBE w n := by
  unfold pack
  split_ifs with h
  · simp [h,eq_comm]
  · simp [h]

def field (bs : Bytes) (i n : ℕ) : Bytes := (bs.drop i).take n

variable {i : ℕ}

lemma natBE_field_lt : natBE (field bs i n) < 256 ^ n := by
  have hl : (field bs i n).length ≤ n := by
    rw [field,length_take]
    exact Nat.min_le_left _ _
  exact Nat.lt_of_lt_of_le natBE_lt (Nat.pow_le_pow_right (by omega) hl)

variable {a : Bytes}

-- the fields of a frame, one after the other
lemma field_cons {x : UInt8} : field (x :: bs) (i + 1) n = field bs i n := rfl

lemma field_skip (h : a.length ≤ i) : field (a ++ bs) i n = field bs (i - a.length) n := by
  rw [field,field,drop_append,drop_of_length_le h,nil_append]

lemma field_head (h : a.length = n) : field (a ++ bs) 0 n = a := take_left' h

lemma field_self (h : a.length = n) : field a 0 n = a := by
  rw [field,drop_zero,← h,take_length]

lemma take_append_field : bs.take i ++ field bs i n = bs.take (i + n) :=
  take_add.symm

lemma bytesBE_field (h : i + n ≤ bs.length) : bytesBE n (natBE (field bs i n)) = field bs i n := by
  have hl : (field bs i n).length = n := by
    rw [field,length_take,length_drop]
    omega
  have hb := bytesBE_natBE (field bs i n)
  rwa [hl] at hb

end Hokora.BigEndian
