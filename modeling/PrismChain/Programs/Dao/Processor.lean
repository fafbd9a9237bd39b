import PrismChain.Programs.Dao.State

namespace PrismChain.Dao

open FixedWidth

inductive Instruction where
  | initializeDao (totalVotingPower : U64)
  | createProposal (title description : Text) (instructionData : Vec Byte)
  | castVote (support : Bool)
  | finalizeProposal
  | executeProposal
  | cancelProposal
  | delegateVotes (delegate : Pubkey) (amount : U64)
  deriving DecidableEq

def daoPda (h : Host) : Pubkey×U8 := h.findProgramAddress [daoStateSeed] h.programId

def proposalPda (h : Host) (id : U64) : Pubkey×U8 :=
  h.findProgramAddress [proposalSeed,leBytes 8 id.toNat] h.programId

def votePda (h : Host) (id : U64) (voter : Pubkey) : Pubkey×U8 :=
  h.findProgramAddress [voteSeed,leBytes 8 id.toNat,voter.bytes] h.programId

def delegationPda (h : Host) (delegator delegate : Pubkey) : Pubkey×U8 :=
  h.findProgramAddress [delegationSeed,delegator.bytes,delegate.bytes] h.programId

def newDao (h : Host) (authority mint treasury : Pubkey) (totalVotingPower : U64) : DaoState where
  authority := authority
  governanceTokenMint := mint
  treasury := treasury
  proposalCount := 0#64
  votingPeriod := defaultVotingPeriodSlots
  quorumBps := defaultQuorumBps
  proposalThreshold := defaultProposalThreshold
  timelockPeriod := defaultTimelockSlots
  totalVotingPower := totalVotingPower
  bump := (daoPda h).2
  isInitialized := true

/-- The end of the voting period wraps around. -/
def newProposal (h : Host) (dao : DaoState) (proposer : Pubkey) (title description : Text)
    (instructionData : Vec Byte) (slot : U64) : Proposal where
  id := dao.proposalCount
  proposer := proposer
  title := title
  description := description
  instructionData := instructionData
  forVotes := 0#64
  againstVotes := 0#64
  startSlot := slot
  endSlot := slot+dao.votingPeriod
  status := .active
  timelockEnd := 0#64
  bump := (proposalPda h dao.proposalCount).2
  isInitialized := true

def newVote (h : Host) (id : U64) (voter : Pubkey) (weight : U64) (support : Bool) : VoteRecord :=
  ⟨voter,id,weight,support,(votePda h id voter).2,true⟩

def newDelegation (h : Host) (delegator delegate : Pubkey) (amount : U64) : Delegation :=
  ⟨delegator,delegate,amount,(delegationPda h delegator delegate).2,true⟩

def Proposal.tally (p : Proposal) (support : Bool) (weight : U64) : Option Proposal :=
  if support then (checkedAdd p.forVotes weight).map fun v => {p with forVotes := v}
  else (checkedAdd p.againstVotes weight).map fun v => {p with againstVotes := v}

def DaoState.quorumThreshold (dao : DaoState) : U128 :=
  (checkedMul (dao.totalVotingPower.setWidth 128) (dao.quorumBps.setWidth 128)).getD 0#128/10000#128

/-- The end of the time lock wraps around. -/
def Proposal.finalized (p : Proposal) (dao : DaoState) (slot : U64) : Option Proposal :=
  (checkedAdd p.forVotes p.againstVotes).map fun total =>
    if dao.quorumThreshold.toNat≤total.toNat ∧ p.againstVotes.toNat<p.forVotes.toNat then
      {p with status := .passed,timelockEnd := slot+dao.timelockPeriod}
    else {p with status := .failed}

section Handlers

variable (h : Host) (fm : Formats) (clock : Clock) (accounts : List AccountInfo)

def processInitializeDao (totalVotingPower : U64) (f : Frame) : ProgramResult :=
  match accounts with
  | authority::daoStateInfo::governanceTokenMint::treasuryInfo::_system::_ => do
    requireSigner authority
    require (daoStateInfo.key=(daoPda h).1) .invalidArgument
    let iv : Invocation := ⟨h.programId,accounts⟩
    let f ← iv.invoke [authority.key,daoStateInfo.key] (iv.createAccount authority.key
      daoStateInfo.key (h.minimumBalance daoLen) daoLen) f
    f.serialize fm.dao (newDao h authority.key governanceTokenMint.key treasuryInfo.key
      totalVotingPower) daoStateInfo.key
  | _ => notEnoughKeys

/-- An account that is readable as a token account of the signer; neither its mint nor the program
that owns it is looked at. -/
def tokensOf (f : Frame) (account holder : Pubkey) : Except ProgramError U64 := do
  let tokenData ← TokenAccount.unpack (f.view account).data
  require (tokenData.owner=holder) .invalidArgument
  pure tokenData.amount

def processCreateProposal (title description : Text) (instructionData : Vec Byte) (f : Frame) :
    ProgramResult :=
  match accounts with
  | proposer::daoStateInfo::proposalInfo::proposerTokenAccount::_system::_ => do
    requireSigner proposer
    let dao ← okOr (fm.dao.load (f.view daoStateInfo.key).data) .borshIoError
    require (dao.isInitialized=true) .uninitializedAccount
    let amount ← tokensOf f proposerTokenAccount.key proposer.key
    require (dao.proposalThreshold.toNat≤amount.toNat) .insufficientFunds
    require (title.len≤128) .invalidArgument
    require (description.len≤1024) .invalidArgument
    require (instructionData.val.length≤512) .invalidArgument
    require (proposalInfo.key=(proposalPda h dao.proposalCount).1) .invalidArgument
    let iv : Invocation := ⟨h.programId,accounts⟩
    let f ← iv.invoke [proposer.key,proposalInfo.key] (iv.createAccount proposer.key
      proposalInfo.key (h.minimumBalance proposalMaxLen) proposalMaxLen) f
    let f ← f.serialize fm.proposal
      (newProposal h dao proposer.key title description instructionData clock.slot) proposalInfo.key
    f.serialize fm.dao {dao with proposalCount := dao.proposalCount+1#64} daoStateInfo.key
  | _ => notEnoughKeys

/-- A proposal; the program that owns its account is not looked at. -/
def loadProposal (f : Frame) (k : Pubkey) : Except ProgramError Proposal := do
  let proposal ← okOr (fm.proposal.load (f.view k).data) .borshIoError
  require (proposal.isInitialized=true) .uninitializedAccount
  pure proposal

def processCastVote (support : Bool) (f : Frame) : ProgramResult :=
  match accounts with
  | voter::proposalInfo::voteRecordInfo::voterTokenAccount::_daoStateInfo::_system::_ => do
    requireSigner voter
    let proposal ← loadProposal fm f proposalInfo.key
    require (proposal.status=.active) .invalidArgument
    require (clock.slot.toNat≤proposal.endSlot.toNat) .invalidArgument
    let voteWeight ← tokensOf f voterTokenAccount.key voter.key
    require (voteWeight≠0#64) .insufficientFunds
    require (voteRecordInfo.key=(votePda h proposal.id voter.key).1) .invalidArgument
    require ((f.view voteRecordInfo.key).data=[]) .accountAlreadyInitialized
    let iv : Invocation := ⟨h.programId,accounts⟩
    let f ← iv.invoke [voter.key,voteRecordInfo.key] (iv.createAccount voter.key
      voteRecordInfo.key (h.minimumBalance voteLen) voteLen) f
    let f ← f.serialize fm.vote
      (newVote h proposal.id voter.key voteWeight support) voteRecordInfo.key
    let proposal ← okOr (proposal.tally support voteWeight) .arithmeticOverflow
    f.serialize fm.proposal proposal proposalInfo.key
  | _ => notEnoughKeys

/-- The DAO state is whatever account the caller passes, initialized or not. -/
def processFinalizeProposal (f : Frame) : ProgramResult :=
  match accounts with
  | _caller::proposalInfo::daoStateInfo::_ => do
    let proposal ← loadProposal fm f proposalInfo.key
    require (proposal.status=.active) .invalidArgument
    require (proposal.endSlot.toNat<clock.slot.toNat) .invalidArgument
    let dao ← okOr (fm.dao.load (f.view daoStateInfo.key).data) .borshIoError
    let proposal ← okOr (proposal.finalized dao clock.slot) .arithmeticOverflow
    f.serialize fm.proposal proposal proposalInfo.key
  | _ => notEnoughKeys

/-- The instruction of the proposal is not carried out. -/
def processExecuteProposal (f : Frame) : ProgramResult :=
  match accounts with
  | _caller::proposalInfo::_daoStateInfo::_ => do
    let proposal ← loadProposal fm f proposalInfo.key
    require (proposal.status=.passed) .invalidArgument
    require (proposal.timelockEnd.toNat≤clock.slot.toNat) .invalidArgument
    f.serialize fm.proposal {proposal with status := .executed} proposalInfo.key
  | _ => notEnoughKeys

def processCancelProposal (f : Frame) : ProgramResult :=
  match accounts with
  | proposer::proposalInfo::_ => do
    requireSigner proposer
    let proposal ← loadProposal fm f proposalInfo.key
    require (proposal.proposer=proposer.key) .invalidArgument
    require (proposal.status=.active) .invalidArgument
    require (clock.slot.toNat≤proposal.endSlot.toNat) .invalidArgument
    f.serialize fm.proposal {proposal with status := .cancelled} proposalInfo.key
  | _ => notEnoughKeys

def openDelegation (delegator delegationInfo : Pubkey) (f : Frame) : ProgramResult :=
  if (f.view delegationInfo).data=[] then
    let iv : Invocation := ⟨h.programId,accounts⟩
    iv.invoke [delegator,delegationInfo] (iv.createAccount delegator delegationInfo
      (h.minimumBalance delegationLen) delegationLen) f
  else pure f

def processDelegateVotes (delegate : Pubkey) (amount : U64) (f : Frame)  : ProgramResult :=
  match accounts with
  | delegator::delegationInfo::delegatorTokenAccount::_system::_ => do
    requireSigner delegator
    require (delegator.key≠delegate) .invalidArgument
    let balance ← tokensOf f delegatorTokenAccount.key delegator.key
    require (amount.toNat≤balance.toNat) .insufficientFunds
    require (delegationInfo.key=(delegationPda h delegator.key delegate).1) .invalidArgument
    let f ← openDelegation h accounts delegator.key delegationInfo.key f
    f.serialize fm.delegation (newDelegation h delegator.key delegate amount) delegationInfo.key
  | _ => notEnoughKeys

def processInstruction : Instruction → Frame → ProgramResult
  | .initializeDao totalVotingPower => processInitializeDao h fm accounts totalVotingPower
  | .createProposal title description instructionData =>
      processCreateProposal h fm clock accounts title description instructionData
  | .castVote support => processCastVote h fm clock accounts support
  | .finalizeProposal => processFinalizeProposal fm clock accounts
  | .executeProposal => processExecuteProposal fm clock accounts
  | .cancelProposal => processCancelProposal fm clock accounts
  | .delegateVotes delegate amount => processDelegateVotes h fm accounts delegate amount

end Handlers

def program (h : Host) (fm : Formats) : Program Instruction := ⟨h.programId,processInstruction h fm⟩

end PrismChain.Dao
