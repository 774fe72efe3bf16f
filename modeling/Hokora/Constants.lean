import Mathlib.Algebra.Group.Nat.Defs
import Mathlib.Data.Int.Notation
import Mathlib.Tactic.Common

/-!
# Protocol constants

Only those that a modelled function reads.
-/
namespace Hokora.Constants

def msgText : ℤ := 0x01
def msgMedia : ℤ := 0x02
def msgSystem : ℤ := 0x03
def msgReaction : ℤ := 0x04
def msgThreadReply : ℤ := 0x05
def msgDelete : ℤ := 0x06
def msgPin : ℤ := 0x07
def msgEdit : ℤ := 0x08

def validMessageTypes : List ℤ :=
  [msgText, msgMedia, msgSystem, msgReaction, msgThreadReply, msgDelete, msgPin, msgEdit]

abbrev Perms := BitVec 64

def permSendMessages : Perms := 0x0001
def permSendMedia : Perms := 0x0002
def permCreateThreads : Perms := 0x0004
def permUseMentions : Perms := 0x0008
def permMentionEveryone : Perms := 0x0010
def permAddReactions : Perms := 0x0020
def permReadHistory : Perms := 0x0040
def permDeleteOwn : Perms := 0x0080
def permDeleteOthers : Perms := 0x0100
def permPinMessages : Perms := 0x0200
def permManageMembers : Perms := 0x1000
def permEditOwn : Perms := 0x8000
def permAll : Perms := 0xFFFF

def Perms.has (perms flag : Perms) : Bool := perms &&& flag ≠ 0

def maxMessageBodySize : ℕ := 32000
def maxDisplayNameLength : ℕ := 64
def maxEditChainLength : ℕ := 50
def maxReactionsPerMessage : ℕ := 20
def maxReactionLength : ℕ := 32
def clockDriftTolerance : ℕ := 300
def mirrorMaxAgeSeconds : ℕ := 30 * 86400
def maxRateLimitBuckets : ℕ := 10000
def maxPendingChallenges : ℕ := 10000
def pendingChallengeMaxAge : ℕ := 300
def pushBatchSize : ℕ := 15
def maxFrameSize : ℕ := 65535
def nonceSize : ℕ := 16
def wireVersion : ℤ := 1

def challengeSize : ℕ := 32
def ed25519PublicKeySize : ℕ := 32
def rnsPublicKeySize : ℕ := 64
def identityHashHexLength : ℕ := 32

def epochRotate : UInt8 := 0x20
def epochRotateAck : UInt8 := 0x21
def epochData : UInt8 := 0x22
def epochNonceOverflow : ℕ := 2 ^ 63

def roleChannelOwner : String := "channel_owner"
def roleEveryone : String := "everyone"

def maxUploadBytes : ℕ := 5 * 1024 * 1024
def maxUploadBytesLimit : ℕ := 50 * 1024 * 1024
def maxStorageBytes : ℕ := 1024 * 1024 * 1024
def maxGlobalStorageBytes : ℕ := 10 * 1024 * 1024 * 1024

def cdspVersion : ℤ := 1

def cdspProfileFull : ℤ := 0x01
def cdspProfilePrioritized : ℤ := 0x02
def cdspProfileMinimal : ℤ := 0x03
def cdspProfileBatched : ℤ := 0x04

def validProfiles : List ℤ :=
  [cdspProfileFull, cdspProfilePrioritized, cdspProfileMinimal, cdspProfileBatched]

end Hokora.Constants
