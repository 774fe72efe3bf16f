import Hokora.Constants
import Hokora.KeyedTable
import Hokora.PyValue

/-!
# The node database

The tables with their primary keys. Columns that no function reads are left out.
-/
namespace Hokora.Database
open BigEndian Constants KeyedTable PyValue

inductive AccessMode where
  | openAccess
  | writeRestricted
  | privateAccess
  deriving DecidableEq

structure Channel where
  id : String
  accessMode : AccessMode := .openAccess
  slowmode : ℤ := 0
  latestSeq : ℕ := 0
  sealed : Bool := false
  idNonempty : (id == "") = false := by exact Eq.refl false
  deriving DecidableEq

lemma Channel.id_ne (c : Channel) : c.id ≠ "" := by
  simpa using c.idNonempty

structure Reaction where
  count : ℕ
  identities : List String
  deriving DecidableEq

structure Message where
  msgHash : String
  channelId : String
  senderHash : Option String := none
  seq : Option ℕ := none
  timestamp : FloatVal
  type : ℤ
  body : Option String := none
  mediaPath : Option String := none
  replyTo : Option String := none
  threadSeq : Option ℕ := none
  ttl : Option ℤ := none
  receivedAt : ℚ := 0
  deleted : Bool := false
  deletedBy : Option String := none
  pinned : Bool := false
  pinnedAt : Option ℚ := none
  editChain : List String := []
  reactions : List (String × Reaction) := []
  lxmfSignature : Option Bytes := none
  lxmfSignedPart : Option Bytes := none
  displayName : Option String := none
  mentions : List String := []
  originNode : Option String := none
  encryptedBody : Option Bytes := none
  encryptionNonce : Option Bytes := none
  encryptionEpoch : Option ℤ := none
  deriving DecidableEq

structure Identity where
  hash : String
  publicKey : Option Bytes := none
  blocked : Bool := false
  lastSeen : ℚ := 0

structure Role where
  id : String
  name : String
  permissions : Perms := 0

structure RoleAssignment where
  roleId : String
  identityHash : String
  channelId : Option String := none
  deriving DecidableEq

structure ChannelOverride where
  channelId : String
  roleId : String
  allow : Perms := 0
  deny : Perms := 0

structure Thread where
  rootMsgHash : String
  channelId : String
  replyCount : ℕ := 0
  latestThreadSeq : ℕ := 0
  lastActivity : ℚ := 0
  participantHashes : List String := []
  deriving DecidableEq

structure Peer where
  identityHash : String
  nodeName : Option String := none
  federationTrusted : Bool := false
  lastHandshake : Option ℚ := none
  publicKey : Option Bytes := none

structure AuditLog where
  actor : String
  actionType : String
  target : Option String := none
  channelId : Option String := none
  timestamp : ℚ

def ChannelOverride.key (o : ChannelOverride) : String × String := (o.channelId, o.roleId)

structure Store where
  channels : Table Channel.id := .empty
  messages : Table Message.msgHash := .empty
  identities : Table Identity.hash := .empty
  roles : Table Role.id := .empty
  assignments : List RoleAssignment := []
  overrides : Table ChannelOverride.key := .empty
  threads : Table Thread.rootMsgHash := .empty
  peers : Table Peer.identityHash := .empty
  auditLog : List AuditLog := []

def Store.channelMessages (st : Store) (channelId : String) : List Message :=
  st.messages.rows.filter fun m => m.channelId = channelId

end Hokora.Database
