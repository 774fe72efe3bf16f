import Mathlib.Algebra.Group.Nat.Defs
import Mathlib.Data.List.Induction
import Mathlib.Logic.Function.Iterate
import Mathlib.Tactic.Common

/-!
# Cyclic redundancy checks and words of bits

A register is fed bit by bit. Two words of one length, at most its width, leave it in other states.
-/
namespace Hokora.SerialCrc

open List
variable {bs : List Bool}

section Register
variable {w : ℕ} {poly c d : BitVec w} {x y : List Bool}

def shift (poly c : BitVec w) : BitVec w := c <<< 1 ^^^ if c.msb then poly else 0

def top : List Bool → BitVec w
  | [] => 0
  | b :: bs => (if b then BitVec.intMin w else 0) ^^^ top bs >>> 1

def feed (poly c : BitVec w) (b : Bool) : BitVec w :=
  shift poly (c ^^^ if b then BitVec.intMin w else 0)

lemma getLsbD_shift {i : ℕ} : (shift poly c).getLsbD i =
    ((c <<< 1).getLsbD i ^^ (c.msb && poly.getLsbD i)) := by
  unfold shift
  cases c.msb <;> simp

lemma shift_xor : shift poly (c ^^^ d) = shift poly c ^^^ shift poly d := by
  refine BitVec.eq_of_getLsbD_eq fun i _ => ?_
  simp [getLsbD_shift,BitVec.shiftLeft_xor_distrib,Bool.and_xor_distrib_right,Bool.xor_left_comm]

lemma shift_injective (ho : poly.getLsbD 0 = true) : Function.Injective (shift poly) := by
  intro c d h
  have hb : ∀ i, ((c <<< 1).getLsbD i ^^ (c.msb && poly.getLsbD i)) =
      ((d <<< 1).getLsbD i ^^ (d.msb && poly.getLsbD i)) := by
    intro i
    rw [← getLsbD_shift,h,getLsbD_shift]
  -- The bit that enters on the right is the one that left.
  have hm : c.msb = d.msb := by
    have h0 := hb 0
    simpa [ho] using h0
  refine BitVec.eq_of_getLsbD_eq fun i hi => ?_
  by_cases hl : i + 1 < w
  · have hn := hb (i + 1)
    rw [hm,BitVec.getLsbD_shiftLeft,BitVec.getLsbD_shiftLeft] at hn
    simpa only [hl,Nat.add_sub_cancel,Bool.xor_left_inj,decide_true,Bool.true_and,
      Nat.not_lt.mpr (Nat.le_add_left 1 i),decide_false,Bool.not_false] using hn
  · obtain rfl : i = w - 1 := by omega
    rw [← BitVec.msb_eq_getLsbD_last,← BitVec.msb_eq_getLsbD_last,hm]

lemma getLsbD_top (bs : List Bool) (i : ℕ) (hi : i + bs.length < w) :
    (top bs : BitVec w).getLsbD i = false := by
  induction bs generalizing i with
  | nil => simp [top]
  | cons b bs ih =>
    rw [length_cons] at hi
    have hr := ih (i + 1) (by omega)
    have hf : (if b then BitVec.intMin w else 0).getLsbD i = false := by
      cases b
      · simp
      · simp [BitVec.getLsbD_intMin]
        omega
    rw [top,BitVec.getLsbD_xor,BitVec.getLsbD_ushiftRight,Nat.add_comm 1 i,hr,hf]
    rfl

lemma shift_ushiftRight (h : c.getLsbD 0 = false) : shift poly (c >>> 1) = c := by
  refine BitVec.eq_of_getLsbD_eq fun i hi => ?_
  cases i with
  | zero => simp [getLsbD_shift,h,BitVec.msb_ushiftRight]
  | succ i =>
    rw [getLsbD_shift,BitVec.getLsbD_shiftLeft,BitVec.getLsbD_ushiftRight]
    simp only [hi,Nat.add_sub_cancel,Nat.add_comm 1 i,BitVec.msb_ushiftRight]
    simp

lemma foldl_feed (hx : x.length ≤ w) :
    x.foldl (feed poly) c = (shift poly)^[x.length] (c ^^^ top x) := by
  induction x generalizing c with
  | nil => simp [top]
  | cons b bs ih =>
    rw [length_cons] at hx
    rw [foldl_cons,ih (by omega),length_cons,Function.iterate_succ_apply,top,
      ← BitVec.xor_assoc,shift_xor,shift_ushiftRight (getLsbD_top bs 0 (by omega))]
    rfl

lemma top_injective (hl : x.length = y.length) (hx : x.length ≤ w)
    (h : (top x : BitVec w) = top y) : x = y := by
  induction x generalizing y with
  | nil => exact (length_eq_zero_iff.mp hl.symm).symm
  | cons b bs ih =>
    cases y with
    | nil => cases hl
    | cons b' bs' =>
      rw [length_cons] at hx
      have hl' : bs.length = bs'.length := Nat.succ.inj hl
      have hb : b = b' := by
        have hm := congrArg BitVec.msb h
        have hw : 0 < w := by omega
        cases b <;> cases b' <;>
          simp [top,BitVec.msb_ushiftRight,BitVec.msb_intMin,hw] at hm ⊢
      subst hb
      have hr : (top bs : BitVec w) >>> 1 = top bs' >>> 1 := by
        simpa [top] using h
      have ht : (top bs : BitVec w) = top bs' := by
        have hba : shift 0 ((top bs : BitVec w) >>> 1) = top bs :=
          shift_ushiftRight (getLsbD_top bs 0 (by omega))
        rw [← hba,hr,shift_ushiftRight (getLsbD_top bs' 0 (by omega))]
      rw [ih hl' (by omega) ht]

lemma foldl_feed_injective (ho : poly.getLsbD 0 = true) :
    Function.Injective fun c => bs.foldl (feed poly) c := by
  induction bs with
  | nil => exact Function.injective_id
  | cons b bs ih => exact fun c d h => (BitVec.xor_left_inj _).mp (shift_injective ho (ih h))

lemma foldl_feed_ne (ho : poly.getLsbD 0 = true) (hl : x.length = y.length)
    (hx : x.length ≤ w) (hne : x ≠ y) {before after : List Bool} :
    (before ++ x ++ after).foldl (feed poly) c ≠ (before ++ y ++ after).foldl (feed poly) c := by
  intro h
  simp only [foldl_append] at h
  have hc := foldl_feed_injective ho h
  rw [foldl_feed hx,foldl_feed (hl ▸ hx : y.length ≤ w),hl] at hc
  exact hne (top_injective hl hx ((BitVec.xor_right_inj _).mp ((shift_injective ho).iterate _ hc)))

end Register

variable {n : ℕ}

section Words
variable {A : Type*}

def bits : ℕ → ℕ → List Bool
  | 0, _ => []
  | w + 1, n => n.testBit w :: bits w n

def ofBits (bs : List Bool) : ℕ := bs.foldl (fun n b => 2 * n + b.toNat) 0

def words (w : ℕ) : ℕ → List A → List (List A)
  | 0, _ => []
  | n + 1, l => l.take w :: words w n (l.drop w)

variable {w : ℕ}

@[simp] lemma length_bits : (bits w n).length = w := by
  induction w with
  | zero => rfl
  | succ w ih => rw [bits,length_cons,ih]

lemma ofBits_concat {b : Bool} : ofBits (bs ++ [b]) = 2 * ofBits bs + b.toNat := by
  simp [ofBits]

lemma bits_concat : bits (w + 1) n = bits w (n / 2) ++ [n.testBit 0] := by
  induction w with
  | zero => rfl
  | succ w ih => rw [bits,ih,bits,Nat.testBit_succ,cons_append]

lemma ofBits_lt (bs : List Bool) : ofBits bs < 2 ^ bs.length := by
  induction bs using List.reverseRecOn with
  | nil => simp [ofBits]
  | append_singleton bs b ih =>
    have hb := b.toNat_lt
    rw [ofBits_concat,length_append,length_singleton,Nat.pow_succ]
    omega

lemma bits_ofBits : bits bs.length (ofBits bs) = bs := by
  induction bs using List.reverseRecOn with
  | nil => rfl
  | append_singleton bs b ih =>
    have hb := b.toNat_lt
    rw [length_append,length_singleton,bits_concat,ofBits_concat,
      show (2 * ofBits bs + b.toNat) / 2 = ofBits bs by omega,ih]
    congr 2
    cases b <;> simp [Nat.testBit_zero]

lemma ofBits_bits (h : n < 2 ^ w) : ofBits (bits w n) = n := by
  induction w generalizing n with
  | zero =>
    obtain rfl : n = 0 := by simpa using h
    rfl
  | succ w ih =>
    rw [bits_concat,ofBits_concat,ih (by rw [Nat.pow_succ] at h; omega),Nat.testBit_zero]
    rcases Nat.mod_two_eq_zero_or_one n with hn | hn <;> simp [hn] <;> omega

lemma flatten_words {l : List A} : (words w n l).flatten = l.take (n * w) := by
  induction n generalizing l with
  | zero => simp [words]
  | succ n ih => rw [words,flatten_cons,ih,Nat.succ_mul,Nat.add_comm,take_add]

@[simp] lemma length_words {l : List A} : (words w n l).length = n := by
  induction n generalizing l with
  | zero => rfl
  | succ n ih => rw [words,length_cons,ih]

lemma length_of_mem_words {l g : List A} (hl : n * w ≤ l.length) (hg : g ∈ words w n l) :
    g.length = w := by
  induction n generalizing l with
  | zero => cases hg
  | succ n ih =>
    rw [Nat.succ_mul] at hl
    rcases mem_cons.mp hg with rfl | hg
    · rw [length_take]
      omega
    · exact ih (by rw [length_drop]; omega) hg

lemma words_flatMap {B : Type*} {f : B → List A} (hf : ∀ b, (f b).length = w) {bs : List B} :
    words w bs.length (bs.flatMap f) = bs.map f := by
  induction bs with
  | nil => rfl
  | cons b bs ih =>
    rw [flatMap_cons,length_cons,words,take_left' (hf b),drop_left' (hf b), ih,map_cons]

end Words
end Hokora.SerialCrc
