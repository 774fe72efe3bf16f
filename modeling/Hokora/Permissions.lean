import Hokora.Repositories

/-!
# Permission resolution

Owner, role and override bits in the order of the source.
-/
namespace Hokora.Permissions
open Constants Database Repositories

structure PermissionResolver where
  nodeOwnerHash : String

def overrideBits (st : Store) (channelId : String) (roles : List Role) : Perms × Perms :=
  roles.foldl (fun acc r =>
    match RoleRepo.getChannelOverride st channelId r.id with
    | some o => (acc.1 ||| o.allow, acc.2 ||| o.deny)
    | none => acc) (0, 0)

def getEffectivePermissions (resolver : PermissionResolver) (st : Store)
    (identityHash : String) (channel : Channel) : Perms :=
  if identityHash = resolver.nodeOwnerHash then permAll else
    let roles := RoleRepo.getIdentityRoles st identityHash (some channel.id)
    if roles.any fun r => r.name = roleChannelOwner then permAll else
      let base := match RoleRepo.getByName st roleEveryone with
        | some r => r.permissions
        | none => 0
      let granted := roles.foldl (fun acc r => acc ||| r.permissions) base
      let bits := overrideBits st channel.id roles
      let perms := (granted ||| bits.1) &&& ~~~bits.2
      if channel.accessMode = .writeRestricted && roles.isEmpty then
        perms &&& ~~~(permSendMessages ||| permSendMedia)
      else perms

end Hokora.Permissions
