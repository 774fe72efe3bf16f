import Mathlib.Tactic.Common
import Mathlib.Data.List.Basic

/-!
# Paging through a list with a cursor

A page is the rows above the cursor, up to a limit; the cursor rises to the last of them.
-/
namespace Hokora.CursorPaging
open List

variable {A : Type*} (key : A → Int) (keep : A → Bool) (rows : List A) (limit : Nat)

def above (c : Int) : List A := rows.filter fun x => c < key x

def page (c : Int) : List A := (above key rows c).take limit

def raise (c : Int) (xs : List A) : Int :=
  xs.foldl (fun c x => if c < key x then key x else c) c

structure Client (A : Type*) where
  cursor : Int
  received : List A := []
  more : Bool := true

def ask (s : Client A) : Client A :=
  if s.more then
    let kept := (page key rows limit s.cursor).filter keep
    { cursor := raise key s.cursor kept
      received := s.received ++ kept
      more := (page key rows limit s.cursor).length = limit }
  else s

def asked (s : Client A) : Nat → Client A
  | 0 => s
  | n + 1 => ask key keep rows limit (asked s n)

/-- No window of a page's length is wholly filtered out. -/
def Passable : Prop :=
  ∀ before window after, rows = before ++ window ++ after → window.length = limit →
    ∃ x ∈ window, keep x = true

variable {key keep rows limit}

variable (key) in
lemma raise_cases (c : Int) (xs : List A) : (raise key c xs = c ∧ ∀ x ∈ xs, key x ≤ c) ∨
      ∃ x ∈ xs, raise key c xs = key x ∧ c < key x ∧ ∀ y ∈ xs, key y ≤ key x := by
  induction xs generalizing c with
  | nil => exact .inl ⟨rfl,fun _ hx => nomatch hx⟩
  | cons a xs ih =>
    rw [raise,foldl_cons,← raise]
    by_cases hlt : c < key a
    · rw [if_pos hlt]
      rcases ih (key a) with ⟨hkeep,hall⟩ | ⟨x,hx,hraise,hax,hall⟩
      · refine .inr ⟨a,mem_cons_self,hkeep,hlt,fun y hy => ?_⟩
        rcases mem_cons.mp hy with rfl | hy
        · exact Int.le_refl _
        · exact hall y hy
      refine .inr ⟨x,mem_cons_of_mem a hx,hraise,by omega,fun y hy => ?_⟩
      rcases mem_cons.mp hy with rfl | hy
      · omega
      · exact hall y hy
    rw [if_neg hlt]
    rcases ih c with ⟨hkeep,hall⟩ | ⟨x,hx,hraise,hcx,hall⟩
    · refine .inl ⟨hkeep,fun y hy => ?_⟩
      rcases mem_cons.mp hy with rfl | hy
      · omega
      · exact hall y hy
    refine .inr ⟨x,mem_cons_of_mem a hx,hraise,hcx,fun y hy => ?_⟩
    rcases mem_cons.mp hy with rfl | hy
    · omega
    · exact hall y hy

lemma raise_reached {c k : Int} {xs : List A} (hl : c < k) (hle : k ≤ raise key c xs) :
    ∃ x ∈ xs, k ≤ key x := by
  rcases raise_cases key c xs with ⟨hs,-⟩ | ⟨x,hx,hr,-,-⟩
  · omega
  · exact ⟨x,hx,by omega⟩

lemma mem_above {c : Int} {x : A} : x ∈ above key rows c ↔ x ∈ rows ∧ c < key x := by
  simp [above]

section Ordered
variable (hrows : rows.Pairwise fun x y => key x < key y)
include hrows

variable {c : Int}

lemma above_suffix : ∃ before, rows = before ++ above key rows c ∧ ∀ x ∈ before, key x ≤ c := by
  induction rows with
  | nil => exact ⟨[],rfl,fun _ hx => nomatch hx⟩
  | cons a rows ih =>
    rw [pairwise_cons] at hrows
    by_cases hlt : c < key a
    · refine ⟨[],?_,fun _ hx => nomatch hx⟩
      have hall : ∀ x ∈ a :: rows, decide (c < key x) = true := by
        intro x hx
        rcases mem_cons.mp hx with rfl | hx
        · exact decide_eq_true hlt
        · have := hrows.1 x hx
          exact decide_eq_true (by omega)
      rw [nil_append,above,filter_eq_self.mpr hall]
    obtain ⟨before,hs,hl⟩ := ih hrows.2
    refine ⟨a :: before,?_,?_⟩
    · have hd : above key (a :: rows) c = above key rows c := by
        simp [above,hlt]
      rw [hd,cons_append,← hs]
    intro x hx
    rcases mem_cons.mp hx with rfl | hx
    · omega
    · exact hl x hx

omit hrows in
lemma above_raise {x : A} (hx : x ∈ above key rows c) :
    (above key rows (key x)).length < (above key rows c).length := by
  have hsub : (above key rows (key x)).Sublist (above key rows c) := by
    apply monotone_filter_right
    intro y hy
    have hxy := of_decide_eq_true hy
    have hcx := (mem_above.mp hx).2
    exact decide_eq_true (by omega)
  refine Nat.lt_of_le_of_ne hsub.length_le fun heq => ?_
  have hsame := hsub.eq_of_length heq
  rw [← hsame] at hx
  have hself := (mem_above.mp hx).2
  omega

lemma page_closed {x y : A} (hy : y ∈ page key rows limit c) (hx : x ∈ above key rows c)
    (hle : key x ≤ key y) : x ∈ page key rows limit c := by
  have hs : (above key rows c).Pairwise fun x y => key x < key y := hrows.filter _
  rw [← take_append_drop limit (above key rows c)] at hx hs
  rcases mem_append.mp hx with ht | hd
  · exact ht
  · have hlt := (pairwise_append.mp hs).2.2 y hy x hd
    omega

lemma page_kept (hp : Passable keep rows limit) (hf : (page key rows limit c).length = limit) :
    ∃ x ∈ page key rows limit c, keep x = true := by
  obtain ⟨before,hs,-⟩ := above_suffix hrows
  refine hp before (page key rows limit c) ((above key rows c).drop limit) ?_ hf
  rw [append_assoc,page,take_append_drop]
  exact hs

end Ordered

variable {s : Client A}

lemma ask_stopped (h : s.more = false) : ask key keep rows limit s = s := by
  simp [ask,h]

lemma ask_more (h : s.more = true) : ask key keep rows limit s =
      { cursor := raise key s.cursor ((page key rows limit s.cursor).filter keep)
        received := s.received ++ (page key rows limit s.cursor).filter keep
        more := (page key rows limit s.cursor).length = limit } := by
  simp [ask,h]

lemma asked_ask (s : Client A) (n : Nat) : asked key keep rows limit (ask key keep rows limit s) n =
      asked key keep rows limit s (n + 1) := by
  induction n with
  | zero => rfl
  | succ n ih =>
    rw [asked,ih]
    rfl

structure Complete (key : A → Int) (keep : A → Bool) (rows : List A) (s : Client A) : Prop where
  below : ∀ x ∈ rows, keep x = true → key x ≤ s.cursor → x ∈ s.received
  all : s.more = false → ∀ x ∈ rows, keep x = true → x ∈ s.received

lemma Complete.ask (hrows : rows.Pairwise fun x y => key x < key y)
    (h : Complete key keep rows s) : Complete key keep rows (ask key keep rows limit s) := by
  cases hm : s.more with
  | false =>
    rw [ask_stopped hm]
    exact h
  | true =>
    rw [ask_more hm]
    have hke : ∀ {x}, x ∈ page key rows limit s.cursor → keep x = true →
        x ∈ s.received ++ (page key rows limit s.cursor).filter keep := by
      intro x hx hk
      exact mem_append_right _ (mem_filter.mpr ⟨hx,hk⟩)
    constructor
    · intro x hx hk hle
      by_cases ho : key x ≤ s.cursor
      · exact mem_append_left _ (h.below x hx hk ho)
      have ha : x ∈ above key rows s.cursor := mem_above.mpr ⟨hx,by omega⟩
      change key x ≤ raise key s.cursor ((page key rows limit s.cursor).filter keep) at hle
      obtain ⟨y,hy,hxy⟩ := raise_reached (by omega) hle
      exact hke (page_closed hrows (mem_filter.mp hy).1 ha hxy) hk
    intro hl x hx hk
    have hs : (page key rows limit s.cursor).length ≠ limit := of_decide_eq_false hl
    by_cases ho : key x ≤ s.cursor
    · exact mem_append_left _ (h.below x hx hk ho)
    have ha : x ∈ above key rows s.cursor := mem_above.mpr ⟨hx,by omega⟩
    have hw : page key rows limit s.cursor = above key rows s.cursor := by
      apply take_of_length_le
      rw [page,length_take] at hs
      omega
    exact hke (hw ▸ ha) hk

lemma Complete.asked (hrows : rows.Pairwise fun x y => key x < key y)
    (h : Complete key keep rows s) (n : Nat) :
    Complete key keep rows (asked key keep rows limit s n) := by
  induction n with
  | zero => exact h
  | succ n ih => exact ih.ask hrows

lemma stops (hrows : rows.Pairwise fun x y => key x < key y)
    (hp : Passable keep rows limit) (s : Client A) :
    ∃ n, (asked key keep rows limit s n).more = false := by
  -- Each full page moves the cursor, so there are fewer rows above it.
  generalize hk : (above key rows s.cursor).length = k
  induction k using Nat.strongRecOn generalizing s with
  | _ k ih =>
    cases hm : s.more with
    | false => exact ⟨0,hm⟩
    | true =>
      by_cases hf : (page key rows limit s.cursor).length = limit
      · obtain ⟨x,hx,hke⟩ := page_kept hrows hp hf
        have hne : (above key rows (ask key keep rows limit s).cursor).length < k := by
          rw [ask_more hm]
          rcases raise_cases key s.cursor ((page key rows limit s.cursor).filter keep) with
            ⟨-,hl⟩ | ⟨y,hy,hr,-,-⟩
          · have hle := hl x (mem_filter.mpr ⟨hx,hke⟩)
            have hlt := (mem_above.mp (mem_of_mem_take hx)).2
            omega
          · rw [hr,← hk]
            exact above_raise (mem_of_mem_take (mem_filter.mp hy).1)
        obtain ⟨n,hn⟩ := ih _ hne (ask key keep rows limit s) rfl
        exact ⟨n + 1,by rw [← asked_ask]; exact hn⟩
      · refine ⟨1,?_⟩
        rw [asked,asked,ask_more hm]
        exact decide_eq_false hf

lemma held (hrows : rows.Pairwise fun x y => key x < key y) {before window after : List A}
    (hs : rows = before ++ window ++ after) (hle : window.length = limit)
    (hn : ∀ x ∈ window, keep x = false) (hm : s.more = true)
    (hf : ∀ x ∈ window ++ after, s.cursor < key x) (n : Nat) :
    (asked key keep rows limit s n).more = true ∧
      ∀ x ∈ window ++ after, (asked key keep rows limit s n).cursor < key x := by
  induction n with
  | zero => exact ⟨hm,hf⟩
  | succ n ih =>
    obtain ⟨hm',hf'⟩ := ih
    rw [asked]
    generalize asked key keep rows limit s n = t at hm' hf'
    -- The page starts before the window and cannot reach past it.
    have ha : above key rows t.cursor = above key before t.cursor ++ window ++ after := by
      have hre : (window ++ after).filter (fun x => t.cursor < key x) = window ++ after :=
        filter_eq_self.mpr fun x hx => decide_eq_true (hf' x hx)
      rw [above,hs,append_assoc,filter_append,hre,← append_assoc]
      rfl
    have hl : limit ≤ (above key before t.cursor ++ window).length := by
      rw [length_append]
      omega
    have hp : page key rows limit t.cursor = (above key before t.cursor ++ window).take limit := by
      rw [page,ha,take_append_of_le_length hl]
    rw [ask_more hm']
    constructor
    · apply decide_eq_true
      rw [hp,length_take]
      omega
    intro x hx
    by_contra hr
    obtain ⟨y,hy,hxy⟩ := raise_reached (hf' x hx) (Int.not_lt.mp hr)
    obtain ⟨hyp,hyk⟩ := mem_filter.mp hy
    rw [hp] at hyp
    rcases mem_append.mp (mem_of_mem_take hyp) with hb | hw
    · have hme : y ∈ before := (mem_above.mp hb).1
      rw [hs,append_assoc,pairwise_append] at hrows
      have hlt := hrows.2.2 y hme x hx
      omega
    · rw [hn y hw] at hyk
      cases hyk

section Start
variable (hrows : rows.Pairwise fun x y => key x < key y) {c : Int} (hstart : ∀ x ∈ rows, c < key x)
include hrows hstart

lemma stops_iff : (∃ n, (asked key keep rows limit { cursor := c } n).more = false) ↔
      Passable keep rows limit := by
  constructor
  · rintro ⟨n,hst⟩ before window after hs hl
    by_contra hn
    have hd : ∀ x ∈ window, keep x = false := by
      intro x hx
      cases hk : keep x with
      | false => rfl
      | true => exact absurd ⟨x,hx,hk⟩ hn
    have hf : ∀ x ∈ window ++ after, c < key x := by
      intro x hx
      apply hstart
      rw [hs,append_assoc]
      exact mem_append_right before hx
    have hh := (held (s := { cursor := c }) hrows hs hl hd rfl hf n).1
    rw [hst] at hh
    cases hh
  · intro hp
    exact stops hrows hp { cursor := c }

lemma stopped_with_all {n : Nat}
    (hs : (asked key keep rows limit { cursor := c } n).more = false) {x : A} (hx : x ∈ rows)
    (hk : keep x = true) : x ∈ (asked key keep rows limit { cursor := c } n).received := by
  have hi : Complete key keep rows { cursor := c } := by
    refine ⟨fun x hx _ hle => ?_,fun hs => nomatch hs⟩
    have hlt := hstart x hx
    change key x ≤ c at hle
    omega
  exact (hi.asked hrows n).all hs x hx hk

end Start

end Hokora.CursorPaging
