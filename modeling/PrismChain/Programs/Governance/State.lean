import PrismChain.Framework.Storage

namespace PrismChain.Governance

open Storage

def minProposalStake : U64 := 100000000000000#64

def quorumBps : U64 := 1000#64

def votingPeriodSecs : I64 := 604800#64
def emergencyVotingPeriodSecs : I64 := 86400#64

def executionDelaySecs : I64 := 172800#64

def vetoWindowSecs : I64 := 172800#64

def emergencySupermajorityBps : U64 := 6667#64
def maxDescriptionLen : Nat := 512
def maxCouncilMembers : Nat := 11
def governanceSeed : List Byte := ascii "governance".toList
def proposalSeed : List Byte := ascii "proposal".toList
def voteRecordSeed : List Byte := ascii "vote_record".toList
def delegationSeed : List Byte := ascii "delegation".toList

def rentSysvar : Pubkey :=
  14622718218521002041783737465291066862245119075016093051802365568774#256

inductive GovernanceError where
  | insufficientStake
  | proposalNotVoting
  | votingPeriodEnded
  | votingPeriodNotEnded
  | quorumNotReached
  | proposalNotPassed
  | timeLockNotElapsed
  | proposalVetoed
  | notCouncilMember
  | vetoWindowExpired
  | supermajorityNotReached
  | alreadyVoted
  | invalidProposalType
  | descriptionTooLong
  | selfDelegation
  | proposalAlreadyFinalized
  | alreadyInitialized
  | invalidAuthority
  | overflow
  | invalidAccountData
  | invalidOwner
  deriving DecidableEq

def err (e : GovernanceError) : ProgramError := .custom (BitVec.ofNat 32 e.ctorIdx)

inductive ProposalType where
  | parameterChange (key value : BitVec 256)
  | treasurySpend (recipient : Pubkey) (amount : U64)
  | programUpgrade (programId buffer : Pubkey)
  | emergency (payload : BitVec 512)
  deriving DecidableEq

inductive ProposalStatus where
  | voting
  | passed
  | defeated
  | vetoed
  | executed
  | cancelled
  deriving DecidableEq

inductive VoteChoice where
  | for_
  | against
  | abstain
  deriving DecidableEq

structure GovernanceState where
  isInitialized : Bool
  authority : Pubkey
  proposalCount : U64
  totalStakedSupply : U64
  council : Vec Pubkey
  bump : U8
  deriving DecidableEq

structure Proposal where
  isInitialized : Bool
  id : U64
  proposer : Pubkey
  description : Vec Byte
  proposalType : ProposalType
  status : ProposalStatus
  votingStart : I64
  votingEnd : I64
  votesFor : U64
  votesAgainst : U64
  votesAbstain : U64
  isEmergency : Bool
  executionTime : I64
  bump : U8
  deriving DecidableEq

structure VoteRecord where
  isInitialized : Bool
  proposalId : U64
  voter : Pubkey
  choice : VoteChoice
  weight : U64
  timestamp : I64
  bump : U8
  deriving DecidableEq

structure Delegation where
  isInitialized : Bool
  delegator : Pubkey
  delegate : Pubkey
  weight : U64
  timestamp : I64
  bump : U8
  deriving DecidableEq

@[reducible] def ProposalType.Payload : Fin 4 → Type
  | 0 => BitVec 256×BitVec 256
  | 1 => Pubkey×U64
  | 2 => Pubkey×Pubkey
  | 3 => BitVec 512

def ProposalType.payloadCodec : (i : Fin 4) → Codec (Payload i)
  | 0 => (Codec.uint 32).pair (Codec.uint 32)
  | 1 => pubkeyCodec.pair .u64
  | 2 => pubkeyCodec.pair pubkeyCodec
  | 3 => Codec.uint 64

def proposalTypeCodec : Codec ProposalType :=
  (Codec.sigma (by decide) ProposalType.payloadCodec).record (fun x => match x with
      | ⟨0,key,value⟩ => .parameterChange key value
      | ⟨1,recipient,amount⟩ => .treasurySpend recipient amount
      | ⟨2,programId,buffer⟩ => .programUpgrade programId buffer
      | ⟨3,payload⟩ => .emergency payload)
    (fun t => match t with
      | .parameterChange key value => ⟨0,key,value⟩
      | .treasurySpend recipient amount => ⟨1,recipient,amount⟩
      | .programUpgrade programId buffer => ⟨2,programId,buffer⟩
      | .emergency payload => ⟨3,payload⟩)
    (by intro t; cases t <;> rfl)
    (by intro x
        match x with
        | ⟨0,_,_⟩ => rfl
        | ⟨1,_,_⟩ => rfl
        | ⟨2,_,_⟩ => rfl
        | ⟨3,_⟩ => rfl)

open Codec in
def statusCodec : Codec ProposalStatus :=
  enumeration {all := [.voting,.passed,.defeated,.vetoed,.executed,.cancelled]}

open Codec in
def choiceCodec : Codec VoteChoice :=
  enumeration {all := [.for_,.against,.abstain]}

open Codec in
def governanceCodec : Codec GovernanceState :=
  (bool.pair (pubkeyCodec.pair (u64.pair (u64.pair (pubkeyCodec.vec.pair u8))))).record
    (fun (i,a,n,s,c,k) => ⟨i,a,n,s,c,k⟩)
    (fun g => (g.isInitialized,g.authority,g.proposalCount,g.totalStakedSupply,g.council,g.bump))

open Codec in
def proposalCodec : Codec Proposal :=
  (bool.pair (u64.pair (pubkeyCodec.pair ((uint 1).vec.pair (proposalTypeCodec.pair
    (statusCodec.pair (i64.pair (i64.pair (u64.pair (u64.pair (u64.pair (bool.pair
      (i64.pair u8))))))))))))).record
    (fun (i,n,p,d,t,s,v,e,f,a,o,m,x,k) => ⟨i,n,p,d,t,s,v,e,f,a,o,m,x,k⟩)
    (fun p => (p.isInitialized,p.id,p.proposer,p.description,p.proposalType,p.status,p.votingStart,
      p.votingEnd,p.votesFor,p.votesAgainst,p.votesAbstain,p.isEmergency,p.executionTime,p.bump))

open Codec in
def voteRecordCodec : Codec VoteRecord :=
  (bool.pair (u64.pair (pubkeyCodec.pair (choiceCodec.pair (u64.pair (i64.pair u8)))))).record
    (fun (i,n,v,c,w,t,k) => ⟨i,n,v,c,w,t,k⟩)
    (fun r => (r.isInitialized,r.proposalId,r.voter,r.choice,r.weight,r.timestamp,r.bump))

open Codec in
def delegationCodec : Codec Delegation :=
  (bool.pair (pubkeyCodec.pair (pubkeyCodec.pair (u64.pair (i64.pair u8))))).record
    (fun (i,o,d,w,t,k) => ⟨i,o,d,w,t,k⟩)
    (fun d => (d.isInitialized,d.delegator,d.delegate,d.weight,d.timestamp,d.bump))

structure Formats where
  governance : Storage GovernanceState
  proposal : Storage Proposal
  voteRecord : Storage VoteRecord
  delegation : Storage Delegation

namespace Formats

def borsh : Formats :=
  ⟨.inPlace governanceCodec,.inPlace proposalCodec,.inPlace voteRecordCodec,
    .inPlace delegationCodec⟩

/-- The level of decoded values, where the size of an account is no matter and no record is taken
for one of another kind. -/
structure Decoded (fm : Formats) : Prop where
  governance : fm.governance.Exact
  proposal : fm.proposal.Exact
  voteRecord : fm.voteRecord.Exact
  delegation : fm.delegation.Exact
  governanceProposal : fm.governance.Apart fm.proposal
  governanceVote : fm.governance.Apart fm.voteRecord
  governanceDelegation : fm.governance.Apart fm.delegation
  proposalVote : fm.proposal.Apart fm.voteRecord
  proposalDelegation : fm.proposal.Apart fm.delegation
  voteDelegation : fm.voteRecord.Apart fm.delegation

def values : Formats :=
  ⟨.whole 1#8 governanceCodec,.whole 2#8 proposalCodec,.whole 3#8 voteRecordCodec,
    .whole 4#8 delegationCodec⟩

theorem values_decoded : values.Decoded where
  governance := whole_exact (by decide) _
  proposal := whole_exact (by decide) _
  voteRecord := whole_exact (by decide) _
  delegation := whole_exact (by decide) _
  governanceProposal := whole_apart (by decide) _ _
  governanceVote := whole_apart (by decide) _ _
  governanceDelegation := whole_apart (by decide) _ _
  proposalVote := whole_apart (by decide) _ _
  proposalDelegation := whole_apart (by decide) _ _
  voteDelegation := whole_apart (by decide) _ _

/-- A proposal can be given another status where it is. -/
def Restatable (fm : Formats) : Prop :=
  ∀ {d p} st,fm.proposal.load d=some p → ∃ d',fm.proposal.store {p with status := st} d=some d'

end Formats

open Codec in
theorem status_length (p : Proposal) (st : ProposalStatus) :
    (proposalCodec.encode {p with status := st}).length=(proposalCodec.encode p).length := by
  have hstatus (st : ProposalStatus) : (statusCodec.encode st).length=1 :=
    enumeration_size _ st
  change (bool.encode _++(u64.encode _++(pubkeyCodec.encode _++((uint 1).vec.encode _++
    (proposalTypeCodec.encode _++(statusCodec.encode st++_)))))).length=
    (bool.encode _++(u64.encode _++(pubkeyCodec.encode _++((uint 1).vec.encode _++
      (proposalTypeCodec.encode _++(statusCodec.encode p.status++_)))))).length
  simp only [List.length_append,hstatus]

theorem Formats.borsh_restatable : Formats.borsh.Restatable := by
  intro d p st hload
  have hd : d=proposalCodec.encode p := proposalCodec.tryFromSlice_eq_some.mp hload
  refine ⟨_,if_pos ?_⟩
  rw [hd,status_length]

end PrismChain.Governance
