import PrismChain.Programs.Launchpad.State

namespace PrismChain.Launchpad

open FixedWidth

inductive Instruction where
  | createLaunch (totalAllocation pricePerToken : U64) (startTime endTime : I64)
      (minPurchase maxPurchase : U64) (launchType : LaunchType)
  | participate (amount : U64)
  | finalizeLaunch
  | claimTokens
  | refund
  | withdrawProceeds
  deriving DecidableEq

def launchPda (h : Host) (tokenMint creator : Pubkey) : Pubkey×U8 :=
  h.findProgramAddress [launchSeed,tokenMint.bytes,creator.bytes] h.programId

def participationPda (h : Host) (launch user : Pubkey) : Pubkey×U8 :=
  h.findProgramAddress [participationSeed,launch.bytes,user.bytes] h.programId

def newLaunch (h : Host) (tokenMint creator : Pubkey) (totalAllocation pricePerToken : U64)
    (startTime endTime : I64) (minPurchase maxPurchase : U64) (launchType : LaunchType) :
    LaunchConfig where
  discriminator := launchDiscriminator
  tokenMint := tokenMint
  creator := creator
  totalAllocation := totalAllocation
  pricePerToken := pricePerToken
  startTime := startTime
  endTime := endTime
  minPurchase := minPurchase
  maxPurchase := maxPurchase
  totalRaised := 0#64
  totalSold := 0#64
  isActive := true
  isFinalized := false
  launchType := launchType
  bump := (launchPda h tokenMint creator).2

def newParticipation (h : Host) (launch user : Pubkey) : Participation where
  discriminator := participationDiscriminator
  user := user
  launch := launch
  amountDeposited := 0#64
  tokensClaimed := 0#64
  isWinner := false
  isRefunded := false
  bump := (participationPda h launch user).2

/-- The deposit counts at once as sold tokens where the price is fixed, rounded down. -/
def LaunchConfig.joined (l : LaunchConfig) (amount : U64) : LaunchConfig :=
  {l with
    totalRaised := l.totalRaised+amount
    totalSold :=
      if l.launchType=.fixedPrice then l.totalSold+amount/l.pricePerToken else l.totalSold}

def Participation.joined (p : Participation) (amount : U64) (launchType : LaunchType) :
    Participation :=
  {p with
    amountDeposited := p.amountDeposited+amount
    isWinner := p.isWinner || launchType=.fixedPrice}

def LaunchConfig.settled (l : LaunchConfig) : U64×U64 :=
  match l.launchType with
  | .fixedPrice => (l.pricePerToken,l.totalSold)
  | .auction =>
    if l.totalRaised≠0#64 ∧ l.totalAllocation≠0#64 then
      let finalPrice := l.totalRaised/l.totalAllocation
      (if finalPrice≠0#64 then finalPrice else l.pricePerToken,l.totalAllocation)
    else (l.pricePerToken,l.totalSold)
  | .lottery =>
    let tokensPerWinner := if l.pricePerToken≠0#64 then l.totalRaised/l.pricePerToken else 0#64
    (l.pricePerToken,if tokensPerWinner.toNat≤l.totalAllocation.toNat then tokensPerWinner
      else l.totalAllocation)

def LaunchConfig.finalized (l : LaunchConfig) : LaunchConfig :=
  {l with
    isActive := false
    isFinalized := true
    pricePerToken := l.settled.1
    totalSold := l.settled.2}

def tokensToClaim (l : LaunchConfig) (p : Participation) : U64 :=
  if l.pricePerToken≠0#64 then p.amountDeposited/l.pricePerToken else 0#64

section Handlers

variable (e : Deployment) (fm : Formats) (clock : Clock) (accounts : List AccountInfo)

def processCreateLaunch (totalAllocation pricePerToken : U64) (startTime endTime : I64)
    (minPurchase maxPurchase : U64) (launchType : LaunchType) (f : Frame)  : ProgramResult :=
  match accounts with
  | creator::launchAccount::tokenMint::_system::_ => do
    requireSigner creator
    require (totalAllocation≠0#64) .invalidArgument
    require (pricePerToken≠0#64) .invalidArgument
    require (startTime.toInt<endTime.toInt) .invalidArgument
    require (minPurchase.toNat≤ maxPurchase.toNat) .invalidArgument
    require ((launchPda e tokenMint.key creator.key).1=launchAccount.key) .invalidSeeds
    let iv : Invocation := ⟨e.programId,accounts⟩
    let f ← iv.invoke [creator.key,launchAccount.key] (iv.createAccount creator.key
      launchAccount.key (e.minimumBalance launchConfigSize) launchConfigSize) f
    f.serialize fm.launch (newLaunch e tokenMint.key creator.key totalAllocation
      pricePerToken startTime endTime minPurchase maxPurchase launchType) launchAccount.key
  | _ => notEnoughKeys

/-- The launch is whatever account the caller passes. -/
def loadLaunch (f : Frame) (k : Pubkey) : Except ProgramError LaunchConfig :=
  okOr (fm.launch.load (f.view k).data) .borshIoError

def loadParticipation (f : Frame) (k : Pubkey) : Except ProgramError Participation :=
  okOr (fm.participation.load (f.view k).data) .borshIoError

def openParticipation (user launch participation : Pubkey) (f : Frame)  : ProgramResult :=
  if (f.view participation).data=[] then do
    let iv : Invocation := ⟨e.programId,accounts⟩
    let f ← iv.invoke [user,participation] (iv.createAccount user participation
      (e.minimumBalance participationSize) participationSize) f
    f.serialize fm.participation (newParticipation e launch user) participation
  else pure f

def processParticipate (amount : U64) (f : Frame) : ProgramResult :=
  match accounts with
  | user::launchAccount::participationAccount::_system::_ => do
    requireSigner user
    let l ← loadLaunch fm f launchAccount.key
    require (l.isActive=true) .invalidAccountData
    require (l.isFinalized=false) .invalidAccountData
    require (l.startTime.toInt≤clock.unixTimestamp.toInt) .invalidArgument
    require (clock.unixTimestamp.toInt≤l.endTime.toInt) .invalidArgument
    require (l.minPurchase.toNat≤amount.toNat) .invalidArgument
    require (amount.toNat≤l.maxPurchase.toNat) .invalidArgument
    require ((participationPda e launchAccount.key user.key).1=participationAccount.key)
      .invalidSeeds
    let f ← openParticipation e fm accounts user.key launchAccount.key participationAccount.key f
    let p ← loadParticipation fm f participationAccount.key
    require ((p.amountDeposited+amount).toNat≤l.maxPurchase.toNat) .invalidArgument
    let iv : Invocation := ⟨e.programId,accounts⟩
    let f ← iv.invoke [user.key,launchAccount.key] (iv.transfer user.key launchAccount.key amount) f
    -- a division by zero ends the program
    require (l.launchType=.fixedPrice → l.pricePerToken≠0#64) .programFailedToComplete
    require (l.launchType=.fixedPrice →
      (l.totalSold+amount/l.pricePerToken).toNat≤l.totalAllocation.toNat) .invalidArgument
    let f ← f.serialize fm.launch (l.joined amount) launchAccount.key
    f.serialize fm.participation (p.joined amount l.launchType) participationAccount.key
  | _ => notEnoughKeys

def processFinalizeLaunch (f : Frame) : ProgramResult :=
  match accounts with
  | creator::launchAccount::_ => do
    requireSigner creator
    let l ← loadLaunch fm f launchAccount.key
    require (l.creator=creator.key) .illegalOwner
    require (l.isFinalized=false) .invalidAccountData
    require (l.endTime.toInt≤clock.unixTimestamp.toInt) .invalidArgument
    f.serialize fm.launch l.finalized launchAccount.key
  | _ => notEnoughKeys

/-- Neither the launch of the participation nor a refund is asked about. -/
def processClaimTokens (f : Frame) : ProgramResult :=
  match accounts with
  | user::launchAccount::participationAccount::tokenSource::tokenDestination::tokenProgram::
      launchAuthority::_ => do
    requireSigner user
    let l ← loadLaunch fm f launchAccount.key
    let p ← loadParticipation fm f participationAccount.key
    require (l.isFinalized=true) .invalidAccountData
    require (p.user=user.key) .illegalOwner
    require (p.tokensClaimed=0#64) .invalidAccountData
    require (l.launchType=.lottery → p.isWinner=true) .invalidArgument
    require (tokensToClaim l p≠0#64) .invalidArgument
    require ((launchPda e l.tokenMint l.creator).1=launchAuthority.key) .invalidSeeds
    let f ← e.invokeSpl ⟨e.programId,accounts⟩ tokenProgram.key transferIndex tokenSource.key
      tokenDestination.key launchAuthority.key (tokensToClaim l p) f
    f.serialize fm.participation
      {p with tokensClaimed := tokensToClaim l p} participationAccount.key
  | _ => notEnoughKeys

def processRefund (f : Frame) : ProgramResult :=
  match accounts with
  | user::launchAccount::participationAccount::_system::_ => do
    requireSigner user
    let l ← loadLaunch fm f launchAccount.key
    let p ← loadParticipation fm f participationAccount.key
    require (l.isFinalized=true) .invalidAccountData
    require (p.user=user.key) .illegalOwner
    require (p.isRefunded=false) .invalidAccountData
    require (p.tokensClaimed=0#64) .invalidAccountData
    require (l.launchType=.lottery → p.isWinner=false) .invalidArgument
    let f := f.move launchAccount.key user.key p.amountDeposited
    f.serialize fm.participation {p with isRefunded := true} participationAccount.key
  | _ => notEnoughKeys

/-- Everything above the rent, whatever was deposited and may still be refunded. -/
def processWithdrawProceeds (f : Frame) : ProgramResult :=
  match accounts with
  | creator::launchAccount::_system::_ => do
    requireSigner creator
    let l ← loadLaunch fm f launchAccount.key
    require (l.creator=creator.key) .illegalOwner
    require (l.isFinalized=true) .invalidAccountData
    let available ← okOr (checkedSub (f.view launchAccount.key).lamports
      (e.minimumBalance launchConfigSize)) .insufficientFunds
    require (available≠0#64) .insufficientFunds
    pure (f.move launchAccount.key creator.key available)
  | _ => notEnoughKeys

def processInstruction : Instruction → Frame → ProgramResult
  | .createLaunch totalAllocation pricePerToken startTime endTime minPurchase
      maxPurchase launchType =>
      processCreateLaunch e fm accounts totalAllocation pricePerToken startTime endTime minPurchase
        maxPurchase launchType
  | .participate amount => processParticipate e fm clock accounts amount
  | .finalizeLaunch => processFinalizeLaunch fm clock accounts
  | .claimTokens => processClaimTokens e fm accounts
  | .refund => processRefund fm accounts
  | .withdrawProceeds => processWithdrawProceeds e fm accounts

end Handlers

def program (e : Deployment) (fm : Formats) : Program Instruction :=
  ⟨e.programId,processInstruction e fm⟩

end PrismChain.Launchpad
