import PrismChain.Programs.Governance.State

namespace PrismChain.Governance

open FixedWidth

inductive Instruction where
  | initializeGovernance (council : Vec Pubkey) (totalStakedSupply : U64)
  | createProposal (description : Vec Byte) (proposalType : ProposalType) (isEmergency : Bool)
  | castVote (choice : VoteChoice) (weight : U64)
  | delegateVote (delegate : Pubkey) (weight : U64)
  | revokeDelegation
  | finalizeVoting
  | executeProposal
  | vetoProposal
  | cancelProposal
  | updateStakedSupply (totalStakedSupply : U64)
  deriving DecidableEq

def governancePda (h : Host) : Pubkey×U8 := h.findProgramAddress [governanceSeed] h.programId

def proposalPda (h : Host) (proposalId : U64) : Pubkey×U8 :=
  h.findProgramAddress [proposalSeed,leBytes 8 proposalId.toNat] h.programId

def voteRecordPda (h : Host) (proposalId : U64) (voter : Pubkey) : Pubkey×U8 :=
  h.findProgramAddress [voteRecordSeed,leBytes 8 proposalId.toNat,voter.bytes] h.programId

def delegationPda (h : Host) (delegator : Pubkey) : Pubkey×U8 :=
  h.findProgramAddress [delegationSeed,delegator.bytes] h.programId

def tally (p : Proposal) (choice : VoteChoice) (weight : U64) : Option Proposal :=
  match choice with
  | .for_ => (checkedAdd p.votesFor weight).map fun v => {p with votesFor := v}
  | .against => (checkedAdd p.votesAgainst weight).map fun v => {p with votesAgainst := v}
  | .abstain => (checkedAdd p.votesAbstain weight).map fun v => {p with votesAbstain := v}

def outcome (p : Proposal) (totalStakedSupply : U64) : Option ProposalStatus := do
  let decisive ← checkedAdd p.votesFor p.votesAgainst
  let totalVotes ← checkedAdd decisive p.votesAbstain
  let quorum ← (checkedMul totalStakedSupply quorumBps).bind (checkedDiv · 10000#64)
  if totalVotes.toNat<quorum.toNat then some .defeated
  else if p.isEmergency then
    let supermajority ← (checkedMul decisive emergencySupermajorityBps).bind (checkedDiv · 10000#64)
    some (if supermajority.toNat≤p.votesFor.toNat then .passed else .defeated)
  else some (if p.votesAgainst.toNat<p.votesFor.toNat then .passed else .defeated)

section Handlers

variable (h : Host) (fm : Formats) (clock : Clock)

def loadGovernance (f : Frame) (k : Pubkey) : Except ProgramError GovernanceState :=
  okOr (fm.governance.load (f.view k).data) (err .invalidAccountData)

def loadProposal (f : Frame) (k : Pubkey) : Except ProgramError Proposal :=
  okOr (fm.proposal.load (f.view k).data) (err .invalidAccountData)

def initializeGovernance (council : Vec Pubkey) (totalStakedSupply : U64)
    (accounts : List AccountInfo) (f : Frame) : ProgramResult :=
  match accounts with
  | governanceInfo::authorityInfo::_system::rentInfo::_ => do
    requireSigner authorityInfo
    require (rentInfo.key=rentSysvar) .invalidArgument
    require (governanceInfo.key=(governancePda h).1) .invalidSeeds
    require (¬∃ g∈fm.governance.load (f.view governanceInfo.key).data,g.isInitialized=true)
      (err .alreadyInitialized)
    require (council.val.length≤ maxCouncilMembers) .invalidArgument
    let state : GovernanceState :=
      ⟨true,authorityInfo.key,0#64,totalStakedSupply,council,(governancePda h).2⟩
    require ((h.minimumBalance (governanceCodec.encode state).length).toNat≤
      (f.view governanceInfo.key).lamports.toNat) .accountNotRentExempt
    f.fill fm.governance state governanceInfo.key
  | _ => notEnoughKeys

def votingPeriod (isEmergency : Bool) : I64 :=
  if isEmergency then emergencyVotingPeriodSecs else votingPeriodSecs

/-- Both deadlines are fixed now, from the end of the voting period. -/
def createProposal (description : Vec Byte) (proposalType : ProposalType) (isEmergency : Bool)
    (accounts : List AccountInfo) (f : Frame) : ProgramResult :=
  match accounts with
  | governanceInfo::proposalInfo::proposerInfo::stakeInfo::clockInfo::_system::_rent::_ => do
    requireSigner proposerInfo
    require (description.val.length≤ maxDescriptionLen) (err .descriptionTooLong)
    require (minProposalStake.toNat≤(f.view stakeInfo.key).lamports.toNat) (err .insufficientStake)
    h.requireClock clockInfo
    let gov ← loadGovernance fm f governanceInfo.key
    let count ← okOr (checkedAdd gov.proposalCount 1#64) (err .overflow)
    let votingEnd ← okOr (checkedAddSigned clock.unixTimestamp (votingPeriod isEmergency))
      (err .overflow)
    let executionTime ← okOr (checkedAddSigned votingEnd executionDelaySecs) (err .overflow)
    let pda := proposalPda h gov.proposalCount
    require (proposalInfo.key=pda.1) .invalidSeeds
    let f ← f.save fm.governance {gov with proposalCount := count} governanceInfo.key
    f.save fm.proposal ⟨true,gov.proposalCount,proposerInfo.key,description,proposalType,.voting,
      clock.unixTimestamp,votingEnd,0#64,0#64,0#64,isEmergency,executionTime,pda.2⟩ proposalInfo.key
  | _ => notEnoughKeys

/-- The weight is what the voter says it is: nothing of the stake account is read. -/
def castVote (choice : VoteChoice) (weight : U64) (accounts : List AccountInfo) (f : Frame) :
    ProgramResult :=
  match accounts with
  | proposalInfo::voteRecordInfo::voterInfo::_stake::clockInfo::_system::_rent::_ => do
    requireSigner voterInfo
    h.requireClock clockInfo
    let p ← loadProposal fm f proposalInfo.key
    require (p.status=.voting) (err .proposalNotVoting)
    require (clock.unixTimestamp.toInt≤p.votingEnd.toInt) (err .votingPeriodEnded)
    let pda := voteRecordPda h p.id voterInfo.key
    require (voteRecordInfo.key=pda.1) .invalidSeeds
    require (¬∃ r∈fm.voteRecord.load (f.view voteRecordInfo.key).data,r.isInitialized=true)
      (err .alreadyVoted)
    let p' ← okOr (tally p choice weight) (err .overflow)
    let f ← f.save fm.voteRecord ⟨true,p.id,voterInfo.key,choice,weight,clock.unixTimestamp,pda.2⟩
      voteRecordInfo.key
    f.save fm.proposal p' proposalInfo.key
  | _ => notEnoughKeys

/-- The delegate that is compared and the one that is kept come from different places. -/
def delegateVote (delegate : Pubkey) (weight : U64) (accounts : List AccountInfo) (f : Frame) :
    ProgramResult :=
  match accounts with
  | delegationInfo::delegatorInfo::delegateInfo::_stake::clockInfo::_system::_rent::_ => do
    requireSigner delegatorInfo
    require (delegatorInfo.key≠delegateInfo.key) (err .selfDelegation)
    h.requireClock clockInfo
    let pda := delegationPda h delegatorInfo.key
    require (delegationInfo.key=pda.1) .invalidSeeds
    f.save fm.delegation ⟨true,delegatorInfo.key,delegate,weight,clock.unixTimestamp,pda.2⟩
      delegationInfo.key
  | _ => notEnoughKeys

def revokeDelegation (accounts : List AccountInfo) (f : Frame) : ProgramResult :=
  match accounts with
  | delegationInfo::delegatorInfo::_ => do
    requireSigner delegatorInfo
    let d ← okOr (fm.delegation.load (f.view delegationInfo.key).data) (err .invalidAccountData)
    require (d.delegator=delegatorInfo.key) (err .invalidAuthority)
    f.save fm.delegation {d with isInitialized := false,weight := 0#64} delegationInfo.key
  | _ => notEnoughKeys

/-- Anybody can call this at any time after the end of the voting period. -/
def finalizeVoting (accounts : List AccountInfo) (f : Frame) : ProgramResult :=
  match accounts with
  | proposalInfo::governanceInfo::clockInfo::_ => do
    h.requireClock clockInfo
    let p ← loadProposal fm f proposalInfo.key
    require (p.status=.voting) (err .proposalNotVoting)
    require (p.votingEnd.toInt≤clock.unixTimestamp.toInt) (err .votingPeriodNotEnded)
    let gov ← loadGovernance fm f governanceInfo.key
    let st ← okOr (outcome p gov.totalStakedSupply) (err .overflow)
    f.save fm.proposal {p with status := st} proposalInfo.key
  | _ => notEnoughKeys

/-- What is executed is only logged. -/
def executeProposal (accounts : List AccountInfo) (f : Frame) : ProgramResult :=
  match accounts with
  | proposalInfo::_governance::executorInfo::clockInfo::_ => do
    requireSigner executorInfo
    h.requireClock clockInfo
    let p ← loadProposal fm f proposalInfo.key
    require (p.status=.passed) (err .proposalNotPassed)
    require (p.executionTime.toInt≤clock.unixTimestamp.toInt) (err .timeLockNotElapsed)
    f.save fm.proposal {p with status := .executed} proposalInfo.key
  | _ => notEnoughKeys

def vetoProposal (accounts : List AccountInfo) (f : Frame) : ProgramResult :=
  match accounts with
  | proposalInfo::governanceInfo::memberInfo::clockInfo::_ => do
    requireSigner memberInfo
    h.requireClock clockInfo
    let gov ← loadGovernance fm f governanceInfo.key
    require (memberInfo.key∈gov.council.val) (err .notCouncilMember)
    let p ← loadProposal fm f proposalInfo.key
    require (p.status=.passed) (err .proposalNotPassed)
    let deadline ← okOr (checkedAddSigned p.votingEnd vetoWindowSecs) (err .overflow)
    require (clock.unixTimestamp.toInt≤deadline.toInt) (err .vetoWindowExpired)
    f.save fm.proposal {p with status := .vetoed} proposalInfo.key
  | _ => notEnoughKeys

def cancelProposal (accounts : List AccountInfo) (f : Frame) : ProgramResult :=
  match accounts with
  | proposalInfo::proposerInfo::_ => do
    requireSigner proposerInfo
    let p ← loadProposal fm f proposalInfo.key
    require (p.proposer=proposerInfo.key) (err .invalidAuthority)
    require (p.status=.voting) (err .proposalAlreadyFinalized)
    f.save fm.proposal {p with status := .cancelled} proposalInfo.key
  | _ => notEnoughKeys

def updateStakedSupply (totalStakedSupply : U64) (accounts : List AccountInfo) (f : Frame) :
    ProgramResult :=
  match accounts with
  | governanceInfo::authorityInfo::_ => do
    requireSigner authorityInfo
    let gov ← loadGovernance fm f governanceInfo.key
    require (gov.authority=authorityInfo.key) (err .invalidAuthority)
    f.save fm.governance {gov with totalStakedSupply := totalStakedSupply} governanceInfo.key
  | _ => notEnoughKeys

def processInstruction (clock : Clock) (accounts : List AccountInfo) :
    Instruction → Frame → ProgramResult
  | .initializeGovernance council totalStakedSupply =>
    initializeGovernance h fm council totalStakedSupply accounts
  | .createProposal description proposalType isEmergency =>
    createProposal h fm clock description proposalType isEmergency accounts
  | .castVote choice weight => castVote h fm clock choice weight accounts
  | .delegateVote delegate weight => delegateVote h fm clock delegate weight accounts
  | .revokeDelegation => revokeDelegation fm accounts
  | .finalizeVoting => finalizeVoting h fm clock accounts
  | .executeProposal => executeProposal h fm clock accounts
  | .vetoProposal => vetoProposal h fm clock accounts
  | .cancelProposal => cancelProposal fm accounts
  | .updateStakedSupply totalStakedSupply => updateStakedSupply fm totalStakedSupply accounts

def program : Program Instruction := ⟨h.programId,processInstruction h fm⟩

end Handlers
end PrismChain.Governance
