import PrismChain.Framework.Cells
import PrismChain.Framework.Payment

namespace PrismChain.Launchpad

def launchSeed : List Byte := ascii "launch".toList
def participationSeed : List Byte := ascii "participation".toList

/-- 63 bytes more than a launch takes. -/
def launchConfigSize : Nat := 8+32+32+8+8+8+8+8+8+8+8+1+1+1+64

/-- One byte less than a participation takes. -/
def participationSize : Nat := 8+32+8+8+1+1+32

inductive LaunchType where
  | fixedPrice
  | lottery
  | auction
  deriving DecidableEq

structure LaunchConfig where
  discriminator : BitVec 64
  tokenMint : Pubkey
  creator : Pubkey
  totalAllocation : U64
  pricePerToken : U64
  startTime : I64
  endTime : I64
  minPurchase : U64
  maxPurchase : U64
  totalRaised : U64
  totalSold : U64
  isActive : Bool
  isFinalized : Bool
  launchType : LaunchType
  bump : U8
  deriving DecidableEq

structure Participation where
  discriminator : BitVec 64
  user : Pubkey
  launch : Pubkey
  amountDeposited : U64
  tokensClaimed : U64
  isWinner : Bool
  isRefunded : Bool
  bump : U8
  deriving DecidableEq

def launchDiscriminator : BitVec 64 := 0x664368636e75614c#64

def participationDiscriminator : BitVec 64 := 0x7069636974726150#64

open Codec

def typeCodec : Codec LaunchType :=
  enumeration {all := [.fixedPrice,.lottery,.auction]}

def launchCodec : Codec LaunchConfig :=
  (u64.pair (pubkeyCodec.pair (pubkeyCodec.pair (u64.pair (u64.pair (u64.pair (u64.pair (u64.pair
    (u64.pair (u64.pair (u64.pair (bool.pair (bool.pair (typeCodec.pair u8)))))))))))))).record
    (fun (d,m,c,al,p,st,en,mi,ma,r,so,ac,fi,t,b) => ⟨d,m,c,al,p,st,en,mi,ma,r,so,ac,fi,t,b⟩)
    (fun l => (l.discriminator,l.tokenMint,l.creator,l.totalAllocation,l.pricePerToken,l.startTime,
      l.endTime,l.minPurchase,l.maxPurchase,l.totalRaised,l.totalSold,l.isActive,l.isFinalized,
      l.launchType,l.bump))

def participationCodec : Codec Participation :=
  (u64.pair
    (pubkeyCodec.pair (pubkeyCodec.pair (u64.pair (u64.pair (bool.pair (bool.pair u8))))))).record
    (fun (d,u,l,a,t,w,r,b) => ⟨d,u,l,a,t,w,r,b⟩)
    (fun p => (p.discriminator,p.user,p.launch,p.amountDeposited,p.tokensClaimed,p.isWinner,
      p.isRefunded,p.bump))

structure Formats where
  launch : Storage LaunchConfig
  participation : Storage Participation

namespace Formats

/-- As the program does it: Borsh in place, where neither account has the size for its value. -/
def borsh : Formats := ⟨.inPlace launchCodec,.inPlace participationCodec⟩

end Formats
end PrismChain.Launchpad
