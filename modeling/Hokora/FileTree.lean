import Mathlib.Data.List.Infix
import Hokora.KeyedTable

/-!
# Path texts and file trees

A tree of directories and of files with their times. Links and permissions are left out.
-/
namespace Hokora.FileTree
open KeyedTable
open List
open Table (get?_eq_none get?_key get?_mem get?_of_mem get?_set)

abbrev Path := List String

/-- What may stand between two slashes as the name of a file. -/
def IsName (s : String) : Prop := s ≠ "" ∧ s ≠ "." ∧ s ≠ ".." ∧ '/' ∉ s.toList

instance (s : String) : Decidable (IsName s) :=
  inferInstanceAs (Decidable (s ≠ "" ∧ s ≠ "." ∧ s ≠ ".." ∧ '/' ∉ s.toList))

def parts (s : String) : List String :=
  ((s.toList.splitOn '/').map String.ofList).filter fun c => c ≠ "" && c ≠ "."

def isAbsolute (s : String) : Bool := s.toList.head? = some '/'

def descend (p : Path) (c : String) : Path := if c = ".." then p.dropLast else p ++ [c]

def start (base : Path) (s : String) : Path := if isAbsolute s then [] else base

def resolve (base : Path) (s : String) : Path := (parts s).foldl descend (start base s)

def nameOf (s : String) : String := (parts s).getLast?.getD ""

def dotAt? (name : List Char) : Option ℕ :=
  let fromEnd := name.reverse.takeWhile fun c => c ≠ '.'
  if fromEnd.length = 0 || name.length ≤ fromEnd.length + 1 then none
  else some (name.length - fromEnd.length - 1)

def stem (s : String) : String :=
  let name := (nameOf s).toList
  String.ofList (name.take ((dotAt? name).getD name.length))

def suffix (s : String) : String :=
  let name := (nameOf s).toList
  String.ofList (name.drop ((dotAt? name).getD name.length))

example : stem "a/b.tar.gz" = "b.tar" ∧ suffix "a/b.tar.gz" = ".gz" := by decide
example : stem ".profile" = ".profile" ∧ suffix "x." = "" ∧ stem "/" = "" := by decide
example : resolve ["media"] "a/../../b" = ["b"] := by decide

variable {s : String}

lemma parts_append {t : String} : parts (s ++ "/" ++ t) = parts s ++ parts t := by
  have hs : (s ++ "/" ++ t).toList.splitOn '/' = s.toList.splitOn '/' ++ t.toList.splitOn '/' := by
    rw [String.toList_append,String.toList_append,append_assoc]
    exact splitOn_append_cons_self s.toList t.toList
  rw [parts,hs,map_append,filter_append]
  rfl

lemma parts_name {n : String} (h : IsName n) : parts n = [n] := by
  obtain ⟨he,hd,-,hs⟩ := h
  rw [parts,splitOn_eq_singleton hs]
  simp [he,hd]

lemma isAbsolute_append (h : s ≠ "") {t : String} : isAbsolute (s ++ t) = isAbsolute s := by
  have hne : s.toList ≠ [] := by simpa using h
  rw [isAbsolute,isAbsolute,String.toList_append,List.head?_append_of_ne_nil _ hne]

variable {base : Path}

lemma resolve_child {n : String} (hs : s ≠ "") (hn : IsName n) :
    resolve base (s ++ "/" ++ n) = resolve base s ++ [n] := by
  have hst : start base (s ++ "/" ++ n) = start base s := by
    rw [start,start,String.append_assoc,isAbsolute_append hs]
  rw [resolve,hst,parts_append,parts_name hn,foldl_append,← resolve]
  exact if_neg hn.2.2.1

lemma resolve_empty_child {n : String} (hn : IsName n) : resolve base ("" ++ "/" ++ n) = [n] := by
  have ha : isAbsolute ("" ++ "/" ++ n) = true := by
    simp [isAbsolute]
  rw [resolve,start,if_pos ha,parts_append,parts_name hn]
  exact if_neg hn.2.2.1

variable {cs : List String}

lemma foldl_descend_names (h : ∀ c ∈ cs, IsName c) {p : Path} : cs.foldl descend p = p ++ cs := by
  induction cs generalizing p with
  | nil => exact (append_nil p).symm
  | cons c cs ih =>
    have hc : descend p c = p ++ [c] := if_neg (h c mem_cons_self).2.2.1
    rw [foldl_cons,hc,ih fun d hd => h d (mem_cons_of_mem c hd),append_assoc]
    rfl

lemma not_mem_of_mem_splitOn {a : Char} {l c : List Char} (h : c ∈ l.splitOn a) : a ∉ c := by
  induction l generalizing c with
  | nil =>
    rw [splitOn_nil,mem_singleton] at h
    rw [h]
    exact not_mem_nil
  | cons x l ih =>
    rw [splitOn_cons_eq_if_modifyHead] at h
    split_ifs at h with hx
    · rcases mem_cons.mp h with rfl | h
      · exact not_mem_nil
      · exact ih h
    cases hs : l.splitOn a with
    | nil => exact absurd hs (splitOn_ne_nil a l)
    | cons c₀ cs =>
      rw [hs] at h ih
      rcases mem_cons.mp h with rfl | h
      · rw [mem_cons,not_or]
        exact ⟨fun e => hx (by simp [e]),ih mem_cons_self⟩
      · exact ih (mem_cons_of_mem c₀ h)

lemma mem_parts {c : String} (h : c ∈ parts s) : c = ".." ∨ IsName c := by
  rw [parts,mem_filter,Bool.and_eq_true,decide_eq_true_eq,decide_eq_true_eq] at h
  obtain ⟨hm,he,hd⟩ := h
  obtain ⟨l,hl,rfl⟩ := mem_map.mp hm
  by_cases hup : String.ofList l = ".."
  · exact .inl hup
  right
  refine ⟨he,hd,hup,?_⟩
  rw [String.toList_ofList]
  exact not_mem_of_mem_splitOn hl

lemma descend_names {p : Path} {c : String} (hp : ∀ x ∈ p, IsName x)
    (hc : c = ".." ∨ IsName c) : ∀ x ∈ descend p c, IsName x := by
  intro x hx
  unfold descend at hx
  split_ifs at hx with hup
  · exact hp x (mem_of_mem_dropLast hx)
  rcases mem_append.mp hx with hx | hx
  · exact hp x hx
  · rw [mem_singleton.mp hx]
    exact hc.resolve_left hup

lemma resolve_names (hb : ∀ x ∈ base, IsName x) : ∀ x ∈ resolve base s, IsName x := by
  have hs : ∀ x ∈ start base s, IsName x := by
    unfold start
    split_ifs
    · intro x hx
      cases hx
    · exact hb
  have hp : ∀ c ∈ parts s, c = ".." ∨ IsName c := fun c hc => mem_parts hc
  unfold resolve
  generalize start base s = p at hs
  generalize parts s = cs at hp
  induction cs generalizing p with
  | nil => exact hs
  | cons c cs ih =>
    exact ih _ (descend_names hs (hp c mem_cons_self)) fun d hd => hp d (mem_cons_of_mem c hd)

structure File (α : Type) where
  path : Path
  content : α
  mtime : ℕ
  deriving DecidableEq

def File.name {α : Type} (f : File α) : String := f.path.getLast?.getD ""

structure FileSystem (α : Type) where
  dirs : List Path
  files : Table (File.path (α := α))
  root : [] ∈ dirs
  closed : ∀ d ∈ dirs, d.dropLast ∈ dirs
  placed : ∀ f ∈ files.rows, f.path.dropLast ∈ dirs ∧ f.path ∉ dirs
  named : ∀ f ∈ files.rows, ∀ c ∈ f.path, IsName c

namespace FileSystem
variable {α : Type} {t t' : FileSystem α} {p q d : Path}

def empty : FileSystem α where
  dirs := [[]]
  files := .empty
  root := mem_singleton_self []
  closed := fun d hd => by
    rw [mem_singleton.mp hd]
    exact mem_singleton_self []
  placed := fun _ hf => nomatch hf
  named := fun _ hf => nomatch hf

def file? (t : FileSystem α) (p : Path) : Option (File α) := t.files.get? p

def isDir (t : FileSystem α) (p : Path) : Bool := p ∈ t.dirs

def walk (t : FileSystem α) : Path → List String → Option Path
  | p, [] => some p
  | p, c :: cs => if t.isDir p then walk t (descend p c) cs else none

lemma walk_eq (h : t.walk p cs = some q) : cs.foldl descend p = q := by
  induction cs generalizing p with
  | nil => exact Option.some.inj h
  | cons c cs ih =>
    unfold walk at h
    split_ifs at h
    exact ih h

lemma walk_congr (h : t'.dirs = t.dirs) : t'.walk p cs = t.walk p cs := by
  induction cs generalizing p with
  | nil => rfl
  | cons c cs ih =>
    have hd : t'.isDir p = t.isDir p := by
      unfold isDir
      rw [h]
    rw [walk,walk,hd,ih]

def children (t : FileSystem α) (d : Path) : List (File α) :=
  t.files.rows.filter fun f => f.path.dropLast = d

def subdirs (t : FileSystem α) (d : Path) : List Path :=
  (t.dirs.filter fun e => e ≠ [] ∧ e.dropLast = d).dedup

def write (t : FileSystem α) (p : Path) (content : α) (now : ℕ) : Option (FileSystem α) :=
  if h : (p.dropLast ∈ t.dirs ∧ p ∉ t.dirs) ∧ ∀ c ∈ p, IsName c then
    some { t with
      files := t.files.set ⟨p,content,now⟩
      placed := fun f hf => by
        have hget := get?_of_mem hf
        rw [get?_set] at hget
        split_ifs at hget with hp
        · cases hget
          exact h.1
        · exact t.placed f (get?_mem hget)
      named := fun f hf => by
        have hget := get?_of_mem hf
        rw [get?_set] at hget
        split_ifs at hget with hp
        · cases hget
          exact h.2
        · exact t.named f (get?_mem hget) }
  else none

def mkdirs (t : FileSystem α) (p : Path) : Option (FileSystem α) :=
  if h : ∀ f ∈ t.files.rows, ¬ f.path <+: p then
    some { t with
      dirs := t.dirs ++ p.inits
      root := mem_append_left _ t.root
      closed := fun d hd => by
        rcases mem_append.mp hd with hd | hd
        · exact mem_append_left _ (t.closed d hd)
        · rw [mem_inits] at hd
          exact mem_append_right _ ((mem_inits _ _).mpr (( dropLast_prefix d).trans hd))
      placed := fun f hf => by
        refine ⟨mem_append_left _ (t.placed f hf).1,fun hmem => ?_⟩
        rcases mem_append.mp hmem with hmem | hmem
        · exact (t.placed f hf).2 hmem
        · exact h f hf ((mem_inits _ _).mp hmem) }
  else none

def unlink (t : FileSystem α) (p : Path) : FileSystem α :=
  { t with
    files := t.files.erase p
    placed := fun f hf => t.placed f (mem_of_mem_filter hf)
    named := fun f hf => t.named f (mem_of_mem_filter hf) }

lemma write_isSome {content : α} {now : ℕ} :
    (t.write p content now).isSome ↔ (p.dropLast ∈ t.dirs ∧ p ∉ t.dirs) ∧ ∀ c ∈ p, IsName c := by
  unfold write
  split_ifs with h
  · exact iff_of_true rfl h
  · exact iff_of_false Bool.false_ne_true h

lemma file?_write {content : α} {now : ℕ} (h : t.write p content now = some t') :
    t'.file? q = if p = q then some ⟨p,content,now⟩ else t.file? q := by
  unfold write at h
  split_ifs at h
  cases h
  exact get?_set t.files _ q

lemma mkdirs_isSome : (t.mkdirs p).isSome ↔ ∀ f ∈ t.files.rows, ¬ f.path <+: p := by
  unfold mkdirs
  split_ifs with h
  · exact iff_of_true rfl h
  · exact iff_of_false Bool.false_ne_true h

lemma mkdirs_files (h : t.mkdirs p = some t') : t'.files = t.files := by
  unfold mkdirs at h
  split_ifs at h
  cases h
  rfl

lemma mkdirs_dirs (h : t.mkdirs p = some t') : t'.dirs = t.dirs ++ p.inits := by
  unfold mkdirs at h
  split_ifs at h
  cases h
  rfl

lemma file?_unlink : (t.unlink p).file? q = if p = q then none else t.file? q := by
  split_ifs with hpq
  · subst hpq
    refine get?_eq_none.mpr fun hm => ?_
    obtain ⟨f,hf,hk⟩ := mem_map.mp hm
    exact of_decide_eq_true (mem_filter.mp hf).2 hk
  cases hq : t.file? q with
  | none =>
    refine get?_eq_none.mpr fun hm => ?_
    obtain ⟨f,hf,hk⟩ := mem_map.mp hm
    exact get?_eq_none.mp hq (mem_map.mpr ⟨f,mem_of_mem_filter hf,hk⟩)
  | some f =>
    have hk : f.path = q := get?_key hq
    have hm : f ∈ (t.unlink p).files.rows :=
      mem_filter.mpr ⟨get?_mem hq,decide_eq_true fun e => hpq (e.symm.trans hk)⟩
    exact hk ▸ get?_of_mem hm

lemma not_file_of_isDir (h : t.isDir p) : ¬ (t.file? p).isSome := by
  intro hs
  obtain ⟨f,hf⟩ := Option.isSome_iff_exists.mp hs
  have hk : f.path = p := get?_key hf
  exact (t.placed f (get?_mem hf)).2 (hk ▸ of_decide_eq_true h)

lemma mem_children {f : File α} : f ∈ t.children d ↔ f ∈ t.files.rows ∧ f.path.dropLast = d := by
  rw [children,mem_filter,decide_eq_true_eq]

lemma path_of_mem_children {f : File α} (h : f ∈ t.children d) :
    f.path = d ++ [f.name] ∧ IsName f.name := by
  obtain ⟨hm,rfl⟩ := mem_children.mp h
  have hne : f.path ≠ [] := fun e => (t.placed f hm).2 (e ▸ t.root)
  have hn : f.name = f.path.getLast hne := by
    rw [File.name,List.getLast?_eq_some_getLast hne,Option.getD_some]
  rw [hn]
  exact ⟨(dropLast_append_getLast hne).symm,t.named f hm _ (getLast_mem hne)⟩

lemma children_unlink : (t.unlink p).children d = (t.children d).filter fun f => f.path ≠ p := by
  rw [children,children,filter_filter]
  change (t.files.rows.filter _).filter _ = _
  rw [filter_filter]
  exact filter_congr fun f _ => Bool.and_comm _ _

lemma children_unlink_perm {f : File α} {fs : List (File α)}
    (h : (t.children d).Perm (f :: fs)) : ((t.unlink f.path).children d).Perm fs := by
  have hp : ((t.children d).map File.path).Nodup :=
    t.files.keyed.sublist (t.files.rows.filter_sublist.map _)
  have hn : ((f :: fs).map File.path).Nodup := (h.map _).nodup_iff.mp hp
  rw [children_unlink]
  refine (h.filter _).trans ?_
  rw [map_cons,nodup_cons] at hn
  have ho : ∀ g ∈ fs, g.path ≠ f.path :=
    fun g hg e => hn.1 (e ▸ mem_map_of_mem hg)
  rw [filter_cons_of_neg (by simp),filter_eq_self.mpr]
  intro g hg
  exact decide_eq_true (ho g hg)

end FileSystem

end Hokora.FileTree
