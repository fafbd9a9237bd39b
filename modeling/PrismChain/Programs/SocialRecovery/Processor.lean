import PrismChain.Programs.SocialRecovery.State

namespace PrismChain.SocialRecovery

open FixedWidth

inductive Instruction where
  | initializeRecovery (guardians : Vec Pubkey)
  | initiateRecovery (newOwner : Pubkey)
  | approveRecovery
  | executeRecovery
  | cancelRecovery
  | initiateGuardianReplacement (oldGuardian newGuardian : Pubkey)
  | finalizeGuardianReplacement
  | cancelGuardianReplacement
  | updateThreshold (newThreshold : U8)
  deriving DecidableEq

def configPda (h : Host) (owner : Pubkey) : Pubkey×U8 :=
  h.findProgramAddress [recoveryConfigSeed,owner.bytes] h.programId

def requestPda (h : Host) (owner : Pubkey) (requestId : U64) : Pubkey×U8 :=
  h.findProgramAddress [recoveryRequestSeed,owner.bytes,leBytes 8 requestId.toNat] h.programId

section Handlers

variable (h : Host) (fm : Formats) (clock : Clock)

def loadConfig (f : Frame) (k : Pubkey) : Except ProgramError RecoveryConfig :=
  okOr (fm.config.load (f.view k).data) (err .invalidAccountData)

def loadRequest (f : Frame) (k : Pubkey) : Except ProgramError RecoveryRequest :=
  okOr (fm.request.load (f.view k).data) (err .invalidAccountData)

def newConfig (owner : Pubkey) (guardians : Vec Pubkey) (bump : U8) : RecoveryConfig :=
  ⟨true,owner,guardians,majorityThreshold guardians.val.length,0#64,none,bump⟩

def initializeRecovery (guardians : Vec Pubkey) (accounts : List AccountInfo) (f : Frame) :
    ProgramResult :=
  match accounts with
  | configInfo::ownerInfo::_system::_rent::_ => do
    requireSigner ownerInfo
    require (minGuardians≤guardians.val.length) (err .tooFewGuardians)
    require (guardians.val.length≤ maxGuardians) (err .tooManyGuardians)
    require (ownerInfo.key∉guardians.val) (err .selfGuardian)
    require ((sortKeys guardians.val).IsChain (·≠·)) (err .duplicateGuardian)
    require (configInfo.key=(configPda h ownerInfo.key).1) .invalidSeeds
    require (¬∃ cfg∈fm.config.load (f.view configInfo.key).data,cfg.isInitialized=true)
      (err .alreadyInitialized)
    f.save fm.config
      (newConfig ownerInfo.key guardians (configPda h ownerInfo.key).2) configInfo.key
  | _ => notEnoughKeys

def newRequest (config : RecoveryConfig) (guardian newOwner : Pubkey) (now : I64) (bump : U8) :
    RecoveryRequest :=
  ⟨true,config.owner,config.requestCount,newOwner,guardian,.pending,.single guardian,
    config.threshold,now,0#64,0#64,bump⟩

def initiateRecovery (newOwner : Pubkey) (accounts : List AccountInfo) (f : Frame) :
    ProgramResult :=
  match accounts with
  | configInfo::requestInfo::guardianInfo::clockSysvar::_system::_rent::_ => do
    requireSigner guardianInfo
    let config ← loadConfig fm f configInfo.key
    require (config.isInitialized=true) (err .notInitialized)
    require (isGuardian config guardianInfo.key=true) (err .notGuardian)
    h.requireClock clockSysvar
    let count ← okOr (checkedAdd config.requestCount 1#64) (err .overflow)
    let pda := requestPda h config.owner config.requestCount
    require (requestInfo.key=pda.1) .invalidSeeds
    let f ← f.save fm.config {config with requestCount := count} configInfo.key
    f.save fm.request (newRequest config guardianInfo.key newOwner clock.unixTimestamp pda.2)
      requestInfo.key
  | _ => notEnoughKeys

def endorsed (request : RecoveryRequest) (approvals : Vec Pubkey) (now : I64) : RecoveryRequest :=
  if request.threshold.toNat≤approvals.val.length then
    {request with approvals := approvals,status := .approved,approvedAt := now}
  else {request with approvals := approvals}

def approveRecovery (accounts : List AccountInfo) (f : Frame) : ProgramResult :=
  match accounts with
  | configInfo::requestInfo::guardianInfo::clockSysvar::_ => do
    requireSigner guardianInfo
    let config ← loadConfig fm f configInfo.key
    require (isGuardian config guardianInfo.key=true) (err .notGuardian)
    let request ← loadRequest fm f requestInfo.key
    require (request.status=.pending) (err .invalidStatus)
    h.requireClock clockSysvar
    let expiry ← okOr (checkedAddSigned request.createdAt recoveryExpirySecs) (err .overflow)
    if expiry.toInt<clock.unixTimestamp.toInt then
      -- written before the error, and so never committed
      let _ ← f.save fm.request {request with status := .expired} requestInfo.key
      .error (err .recoveryExpired)
    else
      require (guardianInfo.key∉request.approvals.val) (err .alreadyApproved)
      let approvals ← okOr (request.approvals.push guardianInfo.key) .invalidAccountData
      f.save fm.request (endorsed request approvals clock.unixTimestamp) requestInfo.key
  | _ => notEnoughKeys

/-- Nobody compares the owner that the request names with the one of the config. -/
def executeRecovery (accounts : List AccountInfo) (f : Frame) : ProgramResult :=
  match accounts with
  | configInfo::requestInfo::executorInfo::clockSysvar::_ => do
    requireSigner executorInfo
    let config ← loadConfig fm f configInfo.key
    let request ← loadRequest fm f requestInfo.key
    require (request.status≠.executed) (err .alreadyExecuted)
    require (request.status≠.cancelled) (err .recoveryCancelled)
    require (request.status≠.expired) (err .recoveryExpired)
    require (request.status≠.pending) (err .thresholdNotMet)
    h.requireClock clockSysvar
    let executeAfter ← okOr (checkedAddSigned request.approvedAt recoveryDelaySecs) (err .overflow)
    require (executeAfter.toInt≤clock.unixTimestamp.toInt) (err .delayNotElapsed)
    let f ← f.save fm.config {config with owner := request.newOwner} configInfo.key
    f.save fm.request
      {request with status := .executed,executedAt := clock.unixTimestamp} requestInfo.key
  | _ => notEnoughKeys

def cancelRecovery (accounts : List AccountInfo) (f : Frame) : ProgramResult :=
  match accounts with
  | requestInfo::ownerInfo::_ => do
    requireSigner ownerInfo
    let request ← loadRequest fm f requestInfo.key
    require (request.accountOwner=ownerInfo.key) (err .notOwner)
    require (request.status≠.executed) (err .alreadyExecuted)
    require (request.status=.pending ∨ request.status=.approved) (err .invalidStatus)
    f.save fm.request {request with status := .cancelled} requestInfo.key
  | _ => notEnoughKeys

def onOwnConfig (change : RecoveryConfig → Except ProgramError RecoveryConfig)
    (configInfo ownerInfo : AccountInfo) (f : Frame) : ProgramResult := do
  requireSigner ownerInfo
  let config ← loadConfig fm f configInfo.key
  require (config.owner=ownerInfo.key) (err .notOwner)
  let config' ← change config
  f.save fm.config config' configInfo.key

def initiateGuardianReplacement (oldGuardian newGuardian : Pubkey) (accounts : List AccountInfo)
    (f : Frame) : ProgramResult :=
  match accounts with
  | configInfo::ownerInfo::clockSysvar::_ =>
    onOwnConfig fm (fun config => do
      require (isGuardian config oldGuardian=true) (err .notGuardian)
      require (isGuardian config newGuardian=false) (err .guardianAlreadyExists)
      require (newGuardian≠ownerInfo.key) (err .selfGuardian)
      require (¬∃ p∈config.pendingReplacement,p.status=.pending) (err .replacementAlreadyPending)
      h.requireClock clockSysvar
      pure {config with
        pendingReplacement := some ⟨oldGuardian,newGuardian,clock.unixTimestamp,.pending⟩})
      configInfo ownerInfo f
  | _ => notEnoughKeys

def waitingReplacement (config : RecoveryConfig) : Except ProgramError GuardianReplacement := do
  let r ← okOr config.pendingReplacement (err .noPendingReplacement)
  require (r.status=.pending) (err .noPendingReplacement)
  pure r

def replaceAt (guardians : Vec Pubkey) (i : Nat) (k : Pubkey) : Vec Pubkey :=
  ⟨guardians.val.set i k,by rw [List.length_set]; exact guardians.property⟩

def finalizeGuardianReplacement (accounts : List AccountInfo) (f : Frame)  : ProgramResult :=
  match accounts with
  | configInfo::ownerInfo::clockSysvar::_ =>
    onOwnConfig fm (fun config => do
      let r ← waitingReplacement config
      h.requireClock clockSysvar
      let executeAfter ← okOr (checkedAddSigned r.initiatedAt guardianReplacementDelaySecs)
        (err .overflow)
      require (executeAfter.toInt≤clock.unixTimestamp.toInt) (err .replacementDelayNotElapsed)
      let pos ← okOr (config.guardians.val.findIdx? (· == r.oldGuardian)) (err .notGuardian)
      pure {config with
        guardians := replaceAt config.guardians pos r.newGuardian
        pendingReplacement := some {r with status := .executed}})
      configInfo ownerInfo f
  | _ => notEnoughKeys

def cancelGuardianReplacement (accounts : List AccountInfo) (f : Frame)  : ProgramResult :=
  match accounts with
  | configInfo::ownerInfo::_ =>
    onOwnConfig fm (fun config => do
      let r ← waitingReplacement config
      pure {config with pendingReplacement := some {r with status := .cancelled}})
      configInfo ownerInfo f
  | _ => notEnoughKeys

def updateThreshold (newThreshold : U8) (accounts : List AccountInfo) (f : Frame) :
    ProgramResult :=
  match accounts with
  | configInfo::ownerInfo::_ =>
    onOwnConfig fm (fun config => do
      require ((majorityThreshold config.guardians.val.length).toNat≤newThreshold.toNat)
        .invalidArgument
      require (newThreshold.toNat≤config.guardians.val.length) .invalidArgument
      pure {config with threshold := newThreshold})
      configInfo ownerInfo f
  | _ => notEnoughKeys

def processInstruction (clock : Clock) (accounts : List AccountInfo) :
    Instruction → Frame → ProgramResult
  | .initializeRecovery guardians => initializeRecovery h fm guardians accounts
  | .initiateRecovery newOwner => initiateRecovery h fm clock newOwner accounts
  | .approveRecovery => approveRecovery h fm clock accounts
  | .executeRecovery => executeRecovery h fm clock accounts
  | .cancelRecovery => cancelRecovery fm accounts
  | .initiateGuardianReplacement oldGuardian newGuardian =>
    initiateGuardianReplacement h fm clock oldGuardian newGuardian accounts
  | .finalizeGuardianReplacement => finalizeGuardianReplacement h fm clock accounts
  | .cancelGuardianReplacement => cancelGuardianReplacement fm accounts
  | .updateThreshold newThreshold => updateThreshold fm newThreshold accounts

def program : Program Instruction := ⟨h.programId,processInstruction h fm⟩

end Handlers
end PrismChain.SocialRecovery
