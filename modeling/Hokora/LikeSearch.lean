import Mathlib.Data.List.Infix

/-!
# The fallback search

LIKE with an escape character, on texts folded by a given function.
-/
namespace Hokora.LikeSearch

open List
/-- `str.replace` of one character by itself behind a backslash. -/
def replaceEscaped (c : Char) (s : List Char) : List Char :=
  s.flatMap fun x => if x = c then ['\\', c] else [x]

def escapeLike (value : List Char) : List Char :=
  replaceEscaped '_' (replaceEscaped '%' (replaceEscaped '\\' value))

/-- SQL's LIKE with the escape character backslash: a pattern and a string. -/
def like : List Char → List Char → Bool
  | [], s => s.isEmpty
  | c :: p, s =>
    if c = '%' then s.tails.any (like p)
    else match s with
      | [] => false
      | x :: t =>
        if c = '_' then like p t
        else if c = '\\' then match p with
          | [] => false
          | e :: p => e = x && like p t
        else c = x && like p t

/-- The condition of the search, `lower(body) LIKE lower('%…%')`. -/
def ilike (lower : Char → Char) (query body : String) : Bool :=
  like (('%' :: (escapeLike query.toList ++ ['%'])).map lower) (body.toList.map lower)

def special : List Char := ['\\', '%', '_']

def escape (c : Char) : List Char := if c ∈ special then ['\\', c] else [c]

lemma escapeLike_eq (value : List Char) : escapeLike value = value.flatMap escape := by
  simp only [escapeLike,replaceEscaped,flatMap_assoc]
  congr 1
  funext c
  by_cases hb : c = '\\'
  · simp [hb,escape,special]
  by_cases hp : c = '%'
  · simp [hp,escape,special]
  by_cases hu : c = '_'
  · simp [hu,escape,special]
  · simp [hb,hp,hu,escape,special]

lemma like_percent {p s : List Char} :
    like ('%' :: p) s = true ↔ ∃ a t, s = a ++ t ∧ like p t = true := by
  have hs : like ('%' :: p) s = s.tails.any (like p) := by
    cases s <;> cases p <;> simp [like]
  rw [hs,any_eq_true]
  constructor
  · rintro ⟨t,ht,h⟩
    obtain ⟨a,rfl⟩ := (mem_tails t s).mp ht
    exact ⟨a,t,rfl,h⟩
  · rintro ⟨a,t,rfl,h⟩
    exact ⟨t,(mem_tails ..).mpr (suffix_append a t),h⟩

lemma like_escape {c : Char} {p s : List Char} :
    like (escape c ++ p) s = true ↔ ∃ t, s = c :: t ∧ like p t = true := by
  have hs : like (escape c ++ p) s = (s.head?.any (c = ·) && like p s.tail) := by
    unfold escape
    split_ifs with hc
    · cases s <;> simp [like]
    · simp only [special,mem_cons,not_mem_nil,or_false,not_or] at hc
      cases s <;> cases p <;> simp [like,hc]
  rw [hs]
  cases s with
  | nil => simp
  | cons x t =>
    constructor
    · intro h
      obtain ⟨rfl,ht⟩ : c = x ∧ like p t = true := by simpa using h
      exact ⟨t,rfl,ht⟩
    rintro ⟨t',he,h⟩
    cases he
    simpa using h

lemma like_escaped {q p s : List Char} :
    like (q.flatMap escape ++ p) s = true ↔ ∃ t, s = q ++ t ∧ like p t = true := by
  induction q generalizing s with
  | nil => simp
  | cons c q ih =>
    simp only [flatMap_cons,append_assoc,like_escape,ih]
    constructor
    · rintro ⟨_,rfl,t,rfl,h⟩
      exact ⟨t,rfl,h⟩
    · rintro ⟨t,rfl,h⟩
      exact ⟨_,rfl,t,rfl,h⟩

/-- Lower-casing neither makes nor changes a character that has a meaning in a pattern. -/
def Spares (lower : Char → Char) : Prop := ∀ c, ∀ x ∈ special, lower c = x ↔ c = x

lemma Spares.map_escape {lower : Char → Char} (h : Spares lower) (c : Char) :
    (escape c).map lower = escape (lower c) := by
  have hs : lower c ∈ special ↔ c ∈ special :=
    ⟨fun hm => ((h c _ hm).mp rfl).symm ▸ hm,fun hm => ((h c c hm).mpr rfl).symm ▸ hm⟩
  have hb : lower '\\' = '\\' := (h _ _ (by simp [special])).mpr rfl
  simp only [escape,hs]
  split_ifs <;> simp [hb]

/-- The search finds the bodies that contain the query, up to the case of letters. -/
theorem search_literal_iff {lower : Char → Char} (h : Spares lower) (query body : String) :
    ilike lower query body = true ↔ ∃ a b c, body.toList = a ++ b ++ c ∧
      b.map lower = query.toList.map lower := by
  have hp : ('%' :: (escapeLike query.toList ++ ['%'])).map lower =
      '%' :: ((query.toList.map lower).flatMap escape ++ ['%']) := by
    have hper : lower '%' = '%' := (h _ _ (by simp [special])).mpr rfl
    simp only [escapeLike_eq,map_cons,map_append,map_flatMap,h.map_escape, flatMap_map,hper,map_nil]
  have hall : ∀ t, like ['%'] t = true := fun t => like_percent.mpr ⟨t,[],by simp,rfl⟩
  simp only [ilike,hp,like_percent,like_escaped,hall,and_true]
  constructor
  · rintro ⟨a,t,hs,c,rfl⟩
    obtain ⟨a',t',hb,rfl,ht⟩ := map_eq_append_iff.mp hs
    obtain ⟨b',c',rfl,hb',rfl⟩ := map_eq_append_iff.mp ht
    exact ⟨a',b',c',by simp [hb],hb'⟩
  · rintro ⟨a,b,c,hs,hb⟩
    exact ⟨a.map lower,_,by rw [hs,append_assoc,map_append],c.map lower,by simp [hb]⟩

theorem percent_found : ilike id "5%" "95% off" = true :=
  (search_literal_iff (fun _ _ _ => Iff.rfl) "5%" "95% off").mpr
    ⟨['9'],['5', '%'],[' ', 'o', 'f', 'f'],rfl,rfl⟩

end Hokora.LikeSearch
