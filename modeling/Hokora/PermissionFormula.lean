import Hokora.Permissions

/-!
# The documented permission formula

The formula of the runbook over sets of roles, next to the loop that the source runs.
-/
namespace Hokora.PermissionFormula
open Constants Database KeyedTable Permissions Repositories
open RoleRepo (getByName getChannelOverride getIdentityRoles)

def heldRoles (st : Store) (identityHash : String) (channel : Channel) : List Role :=
  getIdentityRoles st identityHash (some channel.id)

def applicableRoles (st : Store) (identityHash : String) (channel : Channel) : List Role :=
  (getByName st roleEveryone).toList ++ heldRoles st identityHash channel

def applicableOverrides (st : Store) (identityHash : String) (channel : Channel) :
    List ChannelOverride :=
  st.overrides.rows.filter fun o =>
    o.channelId = channel.id &&
      (applicableRoles st identityHash channel).any fun r => r.id = o.roleId

def unionBits {A : Type} (f : A → Perms) (xs : List A) : Perms :=
  xs.foldr (fun x acc => f x ||| acc) 0

def floorBits (st : Store) (identityHash : String) (channel : Channel) : Perms :=
  if channel.accessMode = .writeRestricted && (heldRoles st identityHash channel).isEmpty then
    permSendMessages ||| permSendMedia
  else 0

def documentedPermissions (resolver : PermissionResolver) (st : Store) (identityHash : String)
    (channel : Channel) : Perms :=
  if identityHash = resolver.nodeOwnerHash then permAll
  else if (heldRoles st identityHash channel).any fun r => r.name = roleChannelOwner then permAll
  else
    let overrides := applicableOverrides st identityHash channel
    (unionBits Role.permissions (applicableRoles st identityHash channel) |||
        unionBits ChannelOverride.allow overrides) &&&
      ~~~unionBits ChannelOverride.deny overrides &&& ~~~floorBits st identityHash channel

lemma getLsbD_unionBits {A : Type} {f : A → Perms} {xs : List A} {i : ℕ} :
    (unionBits f xs).getLsbD i = true ↔ ∃ x ∈ xs, (f x).getLsbD i = true := by
  induction xs with
  | nil => simp [unionBits]
  | cons x xs ih =>
    have hc : unionBits f (x :: xs) = f x ||| unionBits f xs := rfl
    rw [hc,BitVec.getLsbD_or,Bool.or_eq_true,ih]
    simp

lemma getLsbD_foldl_or {A : Type} (f : A → Perms) (xs : List A) (base : Perms) (i : ℕ) :
    (xs.foldl (fun acc x => acc ||| f x) base).getLsbD i = true ↔
      base.getLsbD i = true ∨ ∃ x ∈ xs, (f x).getLsbD i = true := by
  induction xs generalizing base with
  | nil => simp
  | cons x xs ih =>
    rw [List.foldl_cons,ih,BitVec.getLsbD_or,Bool.or_eq_true]
    simp [or_assoc]

/-- The overrides that a list of roles has on a channel. -/
def HasOverride (st : Store) (channelId : String) (roles : List Role) (o : ChannelOverride) :
    Prop :=
  ∃ r ∈ roles, getChannelOverride st channelId r.id = some o

def addOverride (st : Store) (channelId : String) (acc : Perms × Perms) (r : Role) :
    Perms × Perms :=
  match getChannelOverride st channelId r.id with
  | some o => (acc.1 ||| o.allow, acc.2 ||| o.deny)
  | none => acc

lemma overrideBits_eq {st : Store} {ch : String} {roles : List Role} :
    overrideBits st ch roles = roles.foldl (addOverride st ch) (0, 0) := rfl

lemma getLsbD_foldl_addOverride (st : Store) (ch : String) (roles : List Role)
    (acc : Perms × Perms) (i : ℕ) :
    ((roles.foldl (addOverride st ch) acc).1.getLsbD i = true ↔ acc.1.getLsbD i = true ∨
          ∃ o, HasOverride st ch roles o ∧ o.allow.getLsbD i = true) ∧
      ((roles.foldl (addOverride st ch) acc).2.getLsbD i = true ↔ acc.2.getLsbD i = true ∨
          ∃ o, HasOverride st ch roles o ∧ o.deny.getLsbD i = true) := by
  induction roles generalizing acc with
  | nil => simp [HasOverride]
  | cons r roles ih =>
    obtain ⟨ha,hd⟩ := ih (addOverride st ch acc r)
    rw [List.foldl_cons,ha,hd]
    cases hr : getChannelOverride st ch r.id with
    | none => simp [addOverride,HasOverride,hr]
    | some o => simp [addOverride,HasOverride,hr,or_assoc,or_and_right,exists_or]

section
variable (st : Store) (identityHash : String) (channel : Channel)

/-- A role grants the bit, or the override of a held role allows it. -/
def Granted (i : ℕ) : Prop :=
  (∃ r ∈ applicableRoles st identityHash channel, r.permissions.getLsbD i = true) ∨
    ∃ o, HasOverride st channel.id (heldRoles st identityHash channel) o ∧ o.allow.getLsbD i = true

/-- The override of a held role denies the bit. -/
def Denied (i : ℕ) : Prop :=
  ∃ o, HasOverride st channel.id (heldRoles st identityHash channel) o ∧ o.deny.getLsbD i = true

def ChannelOwner : Prop := ∃ r ∈ heldRoles st identityHash channel, r.name = roleChannelOwner

def EveryoneOverride (o : ChannelOverride) : Prop :=
  HasOverride st channel.id (getByName st roleEveryone).toList o

end

variable {rv : PermissionResolver} {st : Store} {identityHash : String} {channel : Channel}

def everyonePermissions (st : Store) : Perms :=
  match getByName st roleEveryone with
  | some r => r.permissions
  | none => 0

lemma getEffectivePermissions_eq (ho : identityHash ≠ rv.nodeOwnerHash)
    (hc : ¬ ChannelOwner st identityHash channel) :
    getEffectivePermissions rv st identityHash channel =
      ((heldRoles st identityHash channel).foldl (fun acc r => acc ||| r.permissions)
          (everyonePermissions st) |||
        (overrideBits st channel.id (heldRoles st identityHash channel)).1) &&&
        ~~~(overrideBits st channel.id (heldRoles st identityHash channel)).2 &&&
        ~~~floorBits st identityHash channel := by
  have hn : ¬ ((heldRoles st identityHash channel).any
      fun r => r.name = roleChannelOwner) = true := by
    simpa [ChannelOwner] using hc
  have hd : getEffectivePermissions rv st identityHash channel =
      if identityHash = rv.nodeOwnerHash then permAll
      else if (heldRoles st identityHash channel).any fun r => r.name = roleChannelOwner then
        permAll
      else
        let perms := ((heldRoles st identityHash channel).foldl (fun acc r => acc ||| r.permissions)
            (everyonePermissions st) |||
          (overrideBits st channel.id (heldRoles st identityHash channel)).1) &&&
          ~~~(overrideBits st channel.id (heldRoles st identityHash channel)).2
        if channel.accessMode = .writeRestricted && (heldRoles st identityHash channel).isEmpty then
          perms &&& ~~~(permSendMessages ||| permSendMedia)
        else perms := rfl
  rw [hd,if_neg ho,if_neg hn,floorBits]
  split_ifs
  · rfl
  · rw [show ~~~(0 : Perms) = BitVec.allOnes 64 by decide,BitVec.and_allOnes]

lemma everyonePermissions_bit {i : ℕ} : (everyonePermissions st).getLsbD i = true ↔
      ∃ r ∈ (getByName st roleEveryone).toList, r.permissions.getLsbD i = true := by
  unfold everyonePermissions
  cases getByName st roleEveryone with
  | none => simp
  | some r => simp

lemma getEffectivePermissions_bit (ho : identityHash ≠ rv.nodeOwnerHash)
    (hc : ¬ ChannelOwner st identityHash channel) {i : ℕ} (hi : i < 64) :
    (getEffectivePermissions rv st identityHash channel).getLsbD i = true ↔
      Granted st identityHash channel i ∧ ¬ Denied st identityHash channel i ∧
        (floorBits st identityHash channel).getLsbD i = false := by
  obtain ⟨hal,hd⟩ :=
    getLsbD_foldl_addOverride st channel.id (heldRoles st identityHash channel) (0, 0) i
  rw [← overrideBits_eq] at hal hd
  have hr := getLsbD_foldl_or Role.permissions (heldRoles st identityHash channel)
    (everyonePermissions st) i
  rw [everyonePermissions_bit] at hr
  have ha : (∃ r ∈ applicableRoles st identityHash channel, r.permissions.getLsbD i = true) ↔
      (∃ r ∈ (getByName st roleEveryone).toList, r.permissions.getLsbD i = true) ∨
        ∃ r ∈ heldRoles st identityHash channel, r.permissions.getLsbD i = true := by
    simp [applicableRoles,or_and_right,exists_or]
  rw [← ha] at hr
  rw [getEffectivePermissions_eq ho hc]
  simp only [BitVec.getLsbD_and,BitVec.getLsbD_or,BitVec.getLsbD_not,Bool.and_eq_true,
    Bool.or_eq_true,hi,decide_true,Bool.true_and,Bool.not_eq_true',← Bool.not_eq_true,
    hr,hal,hd,Granted,Denied]
  simp [and_assoc]

lemma mem_applicableOverrides {o : ChannelOverride} :
    o ∈ applicableOverrides st identityHash channel ↔ EveryoneOverride st channel o ∨
        HasOverride st channel.id (heldRoles st identityHash channel) o := by
  have hro : ∀ roles : List Role, HasOverride st channel.id roles o ↔
      o ∈ st.overrides.rows ∧ o.channelId = channel.id ∧ ∃ r ∈ roles, r.id = o.roleId := by
    intro roles
    constructor
    · rintro ⟨r,hr,ho⟩
      have hk := Table.get?_key ho
      rw [ChannelOverride.key,Prod.mk.injEq] at hk
      exact ⟨Table.get?_mem ho,hk.1,r,hr,hk.2.symm⟩
    rintro ⟨hm,hc,r,hr,hid⟩
    refine ⟨r,hr,?_⟩
    rw [getChannelOverride,hid,← hc]
    exact Table.get?_of_mem hm
  rw [EveryoneOverride,hro,hro,applicableOverrides,List.mem_filter]
  simp only [applicableRoles,Bool.and_eq_true,decide_eq_true_eq,List.any_eq_true,
    List.mem_append,or_and_right,exists_or]
  rw [← and_or_left,← and_or_left]

lemma documentedPermissions_bit (ho : identityHash ≠ rv.nodeOwnerHash)
    (hc : ¬ ChannelOwner st identityHash channel) {i : ℕ} (hi : i < 64) :
    (documentedPermissions rv st identityHash channel).getLsbD i = true ↔
      (Granted st identityHash channel i ∨
          ∃ o, EveryoneOverride st channel o ∧ o.allow.getLsbD i = true) ∧
        ¬ (Denied st identityHash channel i ∨
          ∃ o, EveryoneOverride st channel o ∧ o.deny.getLsbD i = true) ∧
        (floorBits st identityHash channel).getLsbD i = false := by
  have hn : ¬ ((heldRoles st identityHash channel).any
      fun r => r.name = roleChannelOwner) = true := by
    simpa [ChannelOwner] using hc
  have ha : (∃ o ∈ applicableOverrides st identityHash channel, o.allow.getLsbD i = true) ↔
      (∃ o, HasOverride st channel.id (heldRoles st identityHash channel) o ∧
          o.allow.getLsbD i = true) ∨
        ∃ o, EveryoneOverride st channel o ∧ o.allow.getLsbD i = true := by
    simp [mem_applicableOverrides,or_and_right,exists_or,or_comm]
  have hd : (∃ o ∈ applicableOverrides st identityHash channel, o.deny.getLsbD i = true) ↔
      Denied st identityHash channel i ∨
        ∃ o, EveryoneOverride st channel o ∧ o.deny.getLsbD i = true := by
    simp [mem_applicableOverrides,or_and_right,exists_or,or_comm,Denied]
  unfold documentedPermissions
  rw [if_neg ho,if_neg hn]
  simp only [BitVec.getLsbD_and,BitVec.getLsbD_or,BitVec.getLsbD_not,Bool.and_eq_true,
    Bool.or_eq_true,hi,decide_true,Bool.true_and,Bool.not_eq_true',← Bool.not_eq_true,
    getLsbD_unionBits,ha,hd]
  rw [Granted,or_assoc,and_assoc]

/-- Outside the bits that a held role denies or the write-restricted floor takes, the override of
`everyone` denies nothing that is granted and allows nothing that is not. -/
def EveryoneOverrideIdle (st : Store) (identityHash : String) (channel : Channel) : Prop :=
  ∀ o, EveryoneOverride st channel o → ∀ i < 64, ¬ Denied st identityHash channel i →
    (floorBits st identityHash channel).getLsbD i = false →
      (o.deny.getLsbD i = true → ¬ Granted st identityHash channel i) ∧
      (o.allow.getLsbD i = true → Granted st identityHash channel i ∨ o.deny.getLsbD i = true)

lemma everyoneOverride_unique {o o' : ChannelOverride} (h : EveryoneOverride st channel o)
    (h' : EveryoneOverride st channel o') : o' = o := by
  obtain ⟨r,hr,ho⟩ := h
  obtain ⟨r',hr',ho'⟩ := h'
  rw [Option.mem_toList] at hr hr'
  have hs : r' = r := Option.some.inj (hr'.symm.trans hr)
  rw [hs] at ho'
  exact Option.some.inj (ho'.symm.trans ho)

lemma permissions_of_owner
    (h : identityHash = rv.nodeOwnerHash ∨ ChannelOwner st identityHash channel) :
    getEffectivePermissions rv st identityHash channel = permAll ∧
      documentedPermissions rv st identityHash channel = permAll := by
  have ha : ChannelOwner st identityHash channel →
      ((heldRoles st identityHash channel).any fun r => r.name = roleChannelOwner) = true := by
    intro ho
    simpa [ChannelOwner] using ho
  unfold getEffectivePermissions documentedPermissions
  by_cases ho : identityHash = rv.nodeOwnerHash
  · rw [if_pos ho,if_pos ho]
    exact ⟨rfl,rfl⟩
  have hh := ha (h.resolve_left ho)
  rw [if_neg ho,if_neg ho,if_pos hh]
  exact ⟨if_pos hh,rfl⟩

lemma formula_agrees_iff (how : identityHash ≠ rv.nodeOwnerHash)
    (hc : ¬ ChannelOwner st identityHash channel) :
    getEffectivePermissions rv st identityHash channel =
        documentedPermissions rv st identityHash channel ↔
      EveryoneOverrideIdle st identityHash channel := by
  have hb : getEffectivePermissions rv st identityHash channel =
      documentedPermissions rv st identityHash channel ↔
      ∀ i < 64, (getEffectivePermissions rv st identityHash channel).getLsbD i = true ↔
        (documentedPermissions rv st identityHash channel).getLsbD i = true := by
    constructor
    · intro h i _
      rw [h]
    intro h
    apply BitVec.eq_of_getLsbD_eq
    intro i hi
    exact Bool.eq_iff_iff.mpr (h i hi)
  rw [hb]
  constructor
  · intro h o ho i hi hde hf
    have hbi := h i hi
    rw [getEffectivePermissions_bit how hc hi,documentedPermissions_bit how hc hi] at hbi
    constructor
    · intro hden hgr
      have := (hbi.mp ⟨hgr,hde,hf⟩).2.1
      exact this (.inr ⟨o,ho,hden⟩)
    intro ha
    by_contra hno
    push Not at hno
    have hn : ¬ ∃ o', EveryoneOverride st channel o' ∧ o'.deny.getLsbD i = true := by
      rintro ⟨o',ho',hden⟩
      rw [everyoneOverride_unique ho ho'] at hden
      exact hno.2 hden
    exact hno.1 (hbi.mpr ⟨.inr ⟨o,ho,ha⟩,fun hd => hd.elim hde hn,hf⟩).1
  intro hid i hi
  rw [getEffectivePermissions_bit how hc hi,documentedPermissions_bit how hc hi]
  constructor
  · rintro ⟨hgr,hde,hf⟩
    refine ⟨.inl hgr,?_,hf⟩
    rintro (hd | ⟨o,ho,hden⟩)
    · exact hde hd
    · exact (hid o ho i hi hde hf).1 hden hgr
  rintro ⟨hgr,hde,hf⟩
  refine ⟨?_,fun hd => hde (.inl hd),hf⟩
  rcases hgr with hgr | ⟨o,ho,ha⟩
  · exact hgr
  rcases (hid o ho i hi (fun hd => hde (.inl hd)) hf).2 ha with hg | hden
  · exact hg
  · exact absurd (.inr ⟨o,ho,hden⟩) hde

structure Reordered (st st' : Store) : Prop where
  assignments : st'.assignments.Perm st.assignments
  roles : st'.roles.rows.Perm st.roles.rows
  overrides : st'.overrides.rows.Perm st.overrides.rows
  names : (st.roles.rows.map Role.name).Nodup

namespace Reordered
variable {st' : Store}

lemma getByName (h : Reordered st st') (name : String) :
    getByName st' name = getByName st name := by
  have hn : (st'.roles.rows.map Role.name).Nodup :=
    (h.roles.map Role.name).nodup_iff.mpr h.names
  -- A unique column is the key of a table with the same rows.
  let byName : Table Role.name := ⟨st.roles.rows,h.names⟩
  let byName' : Table Role.name := ⟨st'.roles.rows,hn⟩
  have hp : byName'.rows.Perm byName.rows := h.roles
  exact Table.get?_perm hp name

lemma heldRoles (h : Reordered st st') (i : String) (channel : Channel) :
    (heldRoles st' i channel).Perm (heldRoles st i channel) := by
  unfold PermissionFormula.heldRoles getIdentityRoles
  have hg : st'.roles.get? = st.roles.get? := funext (Table.get?_perm h.roles)
  rw [hg]
  exact h.assignments.filterMap _

lemma hasOverride (h : Reordered st st') {ch : String} {roles roles' : List Role}
    (hr : roles'.Perm roles) (o : ChannelOverride) :
    HasOverride st' ch roles' o ↔ HasOverride st ch roles o := by
  unfold HasOverride getChannelOverride
  simp [hr.mem_iff,Table.get?_perm h.overrides]

lemma getEffectivePermissions (h : Reordered st st') (rv : PermissionResolver)
    (ih : String) (channel : Channel) : getEffectivePermissions rv st' ih channel =
      getEffectivePermissions rv st ih channel := by
  have hh := h.heldRoles ih channel
  have hov : ∀ o, HasOverride st' channel.id (PermissionFormula.heldRoles st' ih channel) o ↔
        HasOverride st channel.id (PermissionFormula.heldRoles st ih channel) o :=
    h.hasOverride hh
  have ho : ChannelOwner st' ih channel ↔ ChannelOwner st ih channel := by
    simp only [ChannelOwner,hh.mem_iff]
  have hg : ∀ i, Granted st' ih channel i ↔ Granted st ih channel i := by
    intro i
    simp only [Granted,applicableRoles,List.mem_append,h.getByName,hh.mem_iff,hov]
  have hd : ∀ i, Denied st' ih channel i ↔ Denied st ih channel i := by
    intro i
    simp only [Denied,hov]
  have hf : floorBits st' ih channel = floorBits st ih channel := by
    rw [floorBits,floorBits,hh.isEmpty_eq]
  by_cases hall : ih = rv.nodeOwnerHash ∨ ChannelOwner st ih channel
  · rw [(permissions_of_owner hall).1,(permissions_of_owner (hall.imp_right ho.mpr)).1]
  push Not at hall
  have hch : ¬ ChannelOwner st' ih channel := fun hc => hall.2 (ho.mp hc)
  apply BitVec.eq_of_getLsbD_eq
  intro i hi
  rw [Bool.eq_iff_iff,getEffectivePermissions_bit hall.1 hch hi,
    getEffectivePermissions_bit hall.1 hall.2 hi,hg,hd,hf]

end Reordered

/-- The resolver meets the documented formula, whatever the order of the rows, exactly where the
identity owns the node or the channel or the override of `everyone` is idle. -/
theorem permissions_documented_iff (resolver : PermissionResolver) (st : Store)
    (identityHash : String) (channel : Channel) :
    (getEffectivePermissions resolver st identityHash channel =
        documentedPermissions resolver st identityHash channel ∧
      ∀ st', Reordered st st' → getEffectivePermissions resolver st' identityHash channel =
        getEffectivePermissions resolver st identityHash channel) ↔
      (identityHash = resolver.nodeOwnerHash ∨ ChannelOwner st identityHash channel) ∨
        EveryoneOverrideIdle st identityHash channel := by
  have ho : ∀ st', Reordered st st' → getEffectivePermissions resolver st' identityHash channel =
        getEffectivePermissions resolver st identityHash channel :=
    fun st' h => h.getEffectivePermissions resolver identityHash channel
  rw [and_iff_left ho]
  by_cases hall : identityHash = resolver.nodeOwnerHash ∨ ChannelOwner st identityHash channel
  · have hb := permissions_of_owner hall
    exact iff_of_true (hb.1.trans hb.2.symm) (.inl hall)
  rw [or_iff_right hall]
  push Not at hall
  exact formula_agrees_iff hall.1 hall.2

/-! The runbook's own example: `everyone` loses its send rights on one channel. -/

def announcements : Channel := { id := "announcements" }

def silencedStore : Store where
  channels := .singleton announcements
  roles := .singleton { id := "e", name := roleEveryone, permissions := 0x80EF }
  overrides := .singleton { channelId := "announcements", roleId := "e", deny := 0x0003 }

theorem silenced_may_send :
    Perms.has (getEffectivePermissions ⟨"owner"⟩ silencedStore "alice" announcements)
        permSendMessages = true ∧
      Perms.has (documentedPermissions ⟨"owner"⟩ silencedStore "alice" announcements)
        permSendMessages = false := by
  decide +kernel

end Hokora.PermissionFormula
