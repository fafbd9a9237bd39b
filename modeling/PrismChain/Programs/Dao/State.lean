import PrismChain.Framework.Token

namespace PrismChain.Dao

open Storage

def defaultVotingPeriodSlots : U64 := 648000#64
def defaultQuorumBps : U64 := 1000#64
def defaultProposalThreshold : U64 := 100000#64
def defaultTimelockSlots : U64 := 432000#64

def daoStateSeed : List Byte := ascii "dao_state".toList
def proposalSeed : List Byte := ascii "proposal".toList
def voteSeed : List Byte := ascii "vote".toList
def delegationSeed : List Byte := ascii "delegation".toList

inductive ProposalStatus where
  | pending
  | active
  | passed
  | failed
  | executed
  | cancelled
  deriving DecidableEq

structure DaoState where
  authority : Pubkey
  governanceTokenMint : Pubkey
  treasury : Pubkey
  proposalCount : U64
  votingPeriod : U64
  quorumBps : U64
  proposalThreshold : U64
  timelockPeriod : U64
  totalVotingPower : U64
  bump : U8
  isInitialized : Bool
  deriving DecidableEq

abbrev Text := {s : String // (Codec.utf8 s).length<2^32}

def Text.len (s : Text) : Nat := (Codec.utf8 s.val).length

structure Proposal where
  id : U64
  proposer : Pubkey
  title : Text
  description : Text
  instructionData : Vec Byte
  forVotes : U64
  againstVotes : U64
  startSlot : U64
  endSlot : U64
  status : ProposalStatus
  timelockEnd : U64
  bump : U8
  isInitialized : Bool
  deriving DecidableEq

structure VoteRecord where
  voter : Pubkey
  proposalId : U64
  voteWeight : U64
  support : Bool
  bump : U8
  isInitialized : Bool
  deriving DecidableEq

structure Delegation where
  delegator : Pubkey
  delegate : Pubkey
  amount : U64
  bump : U8
  isInitialized : Bool
  deriving DecidableEq

open Codec

def statusCodec : Codec ProposalStatus :=
  enumeration {all := [.pending,.active,.passed,.failed,.executed,.cancelled]}

def daoCodec : Codec DaoState :=
  (pubkeyCodec.pair (pubkeyCodec.pair (pubkeyCodec.pair (u64.pair (u64.pair (u64.pair (u64.pair
    (u64.pair (u64.pair (u8.pair bool)))))))))).record
    (fun (a,m,t,n,v,q,p,l,w,b,i) => ⟨a,m,t,n,v,q,p,l,w,b,i⟩)
    (fun d =>
    (d.authority,d.governanceTokenMint,d.treasury,d.proposalCount,d.votingPeriod,d.quorumBps,
      d.proposalThreshold,d.timelockPeriod,d.totalVotingPower,d.bump,d.isInitialized))

def proposalCodec : Codec Proposal :=
  (u64.pair (pubkeyCodec.pair (string.pair (string.pair ((uint 1).vec.pair (u64.pair (u64.pair
    (u64.pair (u64.pair (statusCodec.pair (u64.pair (u8.pair bool)))))))))))).record
    (fun (n,p,t,d,x,f,a,s,e,st,l,b,i) => ⟨n,p,t,d,x,f,a,s,e,st,l,b,i⟩)
    (fun p => (p.id,p.proposer,p.title,p.description,p.instructionData,p.forVotes,p.againstVotes,
      p.startSlot,p.endSlot,p.status,p.timelockEnd,p.bump,p.isInitialized))

def voteCodec : Codec VoteRecord :=
  (pubkeyCodec.pair (u64.pair (u64.pair (bool.pair (u8.pair bool))))).record
    (fun (v,n,w,s,b,i) => ⟨v,n,w,s,b,i⟩)
    (fun r => (r.voter,r.proposalId,r.voteWeight,r.support,r.bump,r.isInitialized))

def delegationCodec : Codec Delegation :=
  (pubkeyCodec.pair (pubkeyCodec.pair (u64.pair (u8.pair bool)))).record
    (fun (o,d,n,b,i) => ⟨o,d,n,b,i⟩)
    (fun d => (d.delegator,d.delegate,d.amount,d.bump,d.isInitialized))

def daoLen : Nat := 146
def proposalMaxLen : Nat := 1759
def voteLen : Nat := 51
def delegationLen : Nat := 74

structure Formats where
  dao : Storage DaoState
  proposal : Storage Proposal
  vote : Storage VoteRecord
  delegation : Storage Delegation

namespace Formats

/-- The level of decoded values, where the size of an account is no matter and no record is taken
for one of another kind. -/
structure Decoded (fm : Formats) : Prop where
  dao : fm.dao.Exact
  proposal : fm.proposal.Exact
  vote : fm.vote.Exact
  delegation : fm.delegation.Exact
  daoProposal : fm.dao.Apart fm.proposal
  daoVote : fm.dao.Apart fm.vote
  daoDelegation : fm.dao.Apart fm.delegation
  proposalVote : fm.proposal.Apart fm.vote
  proposalDelegation : fm.proposal.Apart fm.delegation
  voteDelegation : fm.vote.Apart fm.delegation

def values : Formats :=
  ⟨.whole 1#8 daoCodec,.whole 2#8 proposalCodec,.whole 3#8 voteCodec,.whole 4#8 delegationCodec⟩

theorem values_decoded : values.Decoded where
  dao := whole_exact (by decide) _
  proposal := whole_exact (by decide) _
  vote := whole_exact (by decide) _
  delegation := whole_exact (by decide) _
  daoProposal := whole_apart (by decide) _ _
  daoVote := whole_apart (by decide) _ _
  daoDelegation := whole_apart (by decide) _ _
  proposalVote := whole_apart (by decide) _ _
  proposalDelegation := whole_apart (by decide) _ _
  voteDelegation := whole_apart (by decide) _ _

structure Nonempty (fm : Formats) : Prop where
  dao : fm.dao.load []=none
  proposal : fm.proposal.load []=none

theorem Decoded.nonempty {fm : Formats} (h : fm.Decoded) : fm.Nonempty :=
  ⟨h.dao.blank (by simp),h.proposal.blank (by simp)⟩

end Formats
end PrismChain.Dao
