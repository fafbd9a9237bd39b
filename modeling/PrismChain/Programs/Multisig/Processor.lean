import PrismChain.Programs.Multisig.State

namespace PrismChain.PrismMultisig

open FixedWidth

/-- What the program asks of the runtime: also the address of given seeds, and what any other
program does when it is called. -/
structure Runtime extends Host where
  createProgramAddress : List (List Byte) → Pubkey → Option Pubkey
  foreign : Pubkey → Clock → List AccountInfo → List Byte → Bank → Except ProgramError Bank

/-- The seeds with the bump that was found for them give the address that was found. A program that
is called cannot call back, so all it can do is what everybody can do. -/
structure Runtime.Lawful (h : Runtime) : Prop where
  create_find : ∀ seeds,h.createProgramAddress
    (seeds++[[(h.findProgramAddress seeds h.programId).2]]) h.programId=
      some (h.findProgramAddress seeds h.programId).1
  foreign_outside : ∀ {p clk accounts data b b'},p≠h.programId →
    h.foreign p clk accounts data b=.ok b' → Outside h.programId b b'

def labelBytes (label : BitVec 256) : List Byte := leBytes 32 label.toNat

def multisigPda (h : Runtime) (label : BitVec 256) : Pubkey×U8 :=
  h.findProgramAddress [multisigSeed,labelBytes label] h.programId

def transactionPda (h : Runtime) (multisig : Pubkey) (txId : U64) : Pubkey×U8 :=
  h.findProgramAddress [transactionSeed,multisig.bytes,leBytes 8 txId.toNat] h.programId

def signerOf (h : Runtime) (multisig : Multisig) : Option Pubkey :=
  h.createProgramAddress [multisigSeed,labelBytes multisig.label,[multisig.bump]] h.programId

/-- An instruction as it was processed, by itself or inside another one, with the bank before it. -/
structure Event where
  call : Call Instruction
  bank : Bank

/-- Processes an instruction and says which ones were processed in the course of it. -/
abbrev Process := Call Instruction → Bank → Except ProgramError (Bank×List Event)

section Handlers

variable (h : Runtime) (fm : Formats) (clock : Clock)

def loadMultisig (f : Frame) (k : Pubkey) : Except ProgramError Multisig :=
  okOr (fm.multisig.load (f.view k).data) (err .invalidAccountData)

def loadTransaction (f : Frame) (k : Pubkey) : Except ProgramError MultisigTransaction :=
  okOr (fm.transaction.load (f.view k).data) (err .invalidAccountData)

def createMultisig (threshold : U8) (signers : Vec Pubkey) (timeLockSeconds : I64)
    (label : BitVec 256) (accounts : List AccountInfo) (f : Frame) : ProgramResult :=
  match accounts with
  | multisigInfo::payerInfo::_system::_rent::_ => do
    requireSigner payerInfo
    require (minSigners≤ signers.val.length) (err .notEnoughSigners)
    require (signers.val.length≤ maxSigners) (err .tooManySigners)
    require (1≤threshold.toNat) (err .thresholdTooLow)
    require (threshold.toNat≤ signers.val.length) (err .thresholdTooHigh)
    require (timeLockSeconds.toInt≤ maxTimeLockSecs.toInt) (err .timeLockTooLong)
    require ((sortKeys signers.val).IsChain (·≠·)) (err .signerAlreadyExists)
    let pda := multisigPda h label
    require (multisigInfo.key=pda.1) .invalidSeeds
    require (¬∃ m∈fm.multisig.load (f.view multisigInfo.key).data,m.isInitialized=true)
      (err .alreadyInitialized)
    f.save fm.multisig ⟨true,threshold,signers,0#64,timeLockSeconds,label,pda.2⟩ multisigInfo.key
  | _ => notEnoughKeys

def newTransaction (multisig proposer : Pubkey) (txId : U64) (instruction : MultisigInstructionData)
    (now : I64) (bump : U8) : MultisigTransaction :=
  ⟨true,multisig,txId,proposer,instruction,.pending,.single proposer,⟨[],short_nil⟩,0#64,now,0#64,
    bump⟩

def proposeTransaction (instruction : MultisigInstructionData) (accounts : List AccountInfo)
    (f : Frame) : ProgramResult :=
  match accounts with
  | multisigInfo::transactionInfo::proposerInfo::clockSysvar::_system::_rent::_ => do
    requireSigner proposerInfo
    require (instruction.data.val.length≤ maxInstructionDataLen) (err .instructionDataTooLarge)
    require (instruction.accounts.val.length≤ maxInstructionAccounts)
      (err .tooManyInstructionAccounts)
    let multisig ← loadMultisig fm f multisigInfo.key
    require (isSignerOf multisig proposerInfo.key=true) (err .notASigner)
    let count ← okOr (checkedAdd multisig.transactionCount 1#64) (err .overflow)
    h.requireClock clockSysvar
    let pda := transactionPda h multisigInfo.key multisig.transactionCount
    require (transactionInfo.key=pda.1) .invalidSeeds
    let f ← f.save fm.multisig {multisig with transactionCount := count} multisigInfo.key
    f.save fm.transaction (newTransaction multisigInfo.key proposerInfo.key
      multisig.transactionCount instruction clock.unixTimestamp pda.2) transactionInfo.key
  | _ => notEnoughKeys

def endorsed (t : MultisigTransaction) (approvals : Vec Pubkey) (threshold : U8) (now : I64) :
    MultisigTransaction :=
  if threshold.toNat≤approvals.val.length then
    {t with approvals := approvals,status := .approved,approvedAt := now}
  else {t with approvals := approvals}

/-- The clock is looked at only when the threshold is met. Nobody compares the multisig that the
transaction names with the one that is passed. -/
def approveTransaction (accounts : List AccountInfo) (f : Frame) : ProgramResult :=
  match accounts with
  | multisigInfo::transactionInfo::approverInfo::clockSysvar::_ => do
    requireSigner approverInfo
    let multisig ← loadMultisig fm f multisigInfo.key
    require (isSignerOf multisig approverInfo.key=true) (err .notASigner)
    let t ← loadTransaction fm f transactionInfo.key
    require (t.status=.pending) (err .transactionNotPending)
    require (approverInfo.key∉t.approvals.val) (err .alreadyApproved)
    require (approverInfo.key∉t.rejections.val) (err .alreadyRejected)
    let approvals ← okOr (t.approvals.push approverInfo.key) .invalidAccountData
    require (multisig.threshold.toNat≤approvals.val.length → clockSysvar.key=h.clockSysvar)
      .invalidArgument
    f.save fm.transaction
      (endorsed t approvals multisig.threshold clock.unixTimestamp) transactionInfo.key
  | _ => notEnoughKeys

def opposed (t : MultisigTransaction) (rejections : Vec Pubkey) (multisig : Multisig) :
    MultisigTransaction :=
  let possible := (2^64+multisig.signers.val.length-rejections.val.length)%2^64
  if possible< multisig.threshold.toNat then {t with rejections := rejections,status := .rejected}
  else {t with rejections := rejections}

def rejectTransaction (accounts : List AccountInfo) (f : Frame) : ProgramResult :=
  match accounts with
  | multisigInfo::transactionInfo::rejectorInfo::_clock::_ => do
    requireSigner rejectorInfo
    let multisig ← loadMultisig fm f multisigInfo.key
    require (isSignerOf multisig rejectorInfo.key=true) (err .notASigner)
    let t ← loadTransaction fm f transactionInfo.key
    require (t.status=.pending) (err .transactionNotPending)
    require (rejectorInfo.key∉t.rejections.val) (err .alreadyRejected)
    require (rejectorInfo.key∉t.approvals.val) (err .alreadyApproved)
    let rejections ← okOr (t.rejections.push rejectorInfo.key) .invalidAccountData
    f.save fm.transaction (opposed t rejections multisig) transactionInfo.key
  | _ => notEnoughKeys

def cancelTransaction (accounts : List AccountInfo) (f : Frame) : ProgramResult :=
  match accounts with
  | transactionInfo::proposerInfo::_ => do
    requireSigner proposerInfo
    let t ← loadTransaction fm f transactionInfo.key
    require (t.proposer=proposerInfo.key) (err .invalidAuthority)
    require (t.status=.pending) (err .transactionNotPending)
    f.save fm.transaction {t with status := .cancelled} transactionInfo.key
  | _ => notEnoughKeys

def onOwnMultisig (change : Multisig → Except ProgramError Multisig) (accounts : List AccountInfo)
    (f : Frame) : ProgramResult :=
  match accounts with
  | multisigInfo::authorityInfo::_ => do
    require (authorityInfo.isSigner=true ∧ authorityInfo.key=multisigInfo.key)
      (err .invalidAuthority)
    let multisig ← loadMultisig fm f multisigInfo.key
    let multisig' ← change multisig
    f.save fm.multisig multisig' multisigInfo.key
  | _ => notEnoughKeys

def addSigner (newSigner : Pubkey) : List AccountInfo → Frame → ProgramResult :=
  onOwnMultisig fm fun multisig => do
    require (newSigner∉multisig.signers.val) (err .signerAlreadyExists)
    require (multisig.signers.val.length< maxSigners) (err .tooManySigners)
    let signers ← okOr (multisig.signers.push newSigner) .invalidAccountData
    pure {multisig with signers := signers}

def removeAt (signers : Vec Pubkey) (i : Nat) : Vec Pubkey :=
  ⟨signers.val.eraseIdx i,lt_of_le_of_lt (List.length_eraseIdx_le _ _) signers.property⟩

def removeSigner (signerToRemove : Pubkey) : List AccountInfo → Frame → ProgramResult :=
  onOwnMultisig fm fun multisig => do
    let pos ← okOr (multisig.signers.val.findIdx? (· == signerToRemove)) (err .notASigner)
    require (multisig.threshold.toNat≤ multisig.signers.val.length-1)
      (err .cannotRemoveBelowThreshold)
    require (minSigners≤ multisig.signers.val.length-1) (err .notEnoughSigners)
    pure {multisig with signers := removeAt multisig.signers pos}

def changeThreshold (newThreshold : U8) : List AccountInfo → Frame → ProgramResult :=
  onOwnMultisig fm fun multisig => do
    require (1≤newThreshold.toNat) (err .thresholdTooLow)
    require (newThreshold.toNat≤ multisig.signers.val.length) (err .thresholdTooHigh)
    pure {multisig with threshold := newThreshold}

/-- The accounts as the callee sees them: an address that is listed twice has the privileges of
both entries. -/
def calleeAccounts (metas : List MultisigAccountMeta) : List AccountInfo :=
  metas.map fun m => ⟨m.pubkey,metas.any fun n => n.pubkey==m.pubkey && n.isSigner,
    metas.any fun n => n.pubkey==m.pubkey && n.isWritable⟩

/-- The program can call itself directly; `self` processes one instruction less deep. -/
def dispatch (self : Process) (ix : MultisigInstructionData) (b : Bank) :
    Except ProgramError (Bank×List Event) :=
  if ix.programId=h.programId then do
    let i ← okOr (instructionCodec.tryFromSlice ix.data.val) .invalidInstructionData
    self ⟨clock,calleeAccounts ix.accounts.val,i⟩ b
  else do
    let b' ← h.foreign ix.programId clock (calleeAccounts ix.accounts.val) ix.data.val b
    pure (b',[])

/-- `invoke_signed` with one signing address: the callee gets no privilege that the caller has not,
but for the signature of that address. -/
def invokeSigned (self : Process) (iv : Invocation) (infos : List AccountInfo)
    (ix : MultisigInstructionData) (signer : Pubkey) (f : Frame) :
    Except ProgramError (Frame×List Event) := do
  let metas := ix.accounts.val
  let keys := metas.map MultisigAccountMeta.pubkey
  require ((ix.programId::keys).all fun k => infos.any fun a => a.key==k) .missingAccount
  require (∀ m∈metas,m.isWritable=true → iv.writable m.pubkey=true) .privilegeEscalation
  require (∀ m∈metas,m.isSigner=true → iv.signed m.pubkey=true ∨ m.pubkey=signer)
    .privilegeEscalation
  iv.sync keys f
  let called ← dispatch h clock self ix f.view
  pure (⟨fun k => if k∈keys then called.1 k else f.synced k,called.1⟩,called.2)

/-- Neither the owner of the multisig account nor its address is looked at, and nobody compares it
with the multisig that the transaction names: the signing address comes from the label and bump
that the account happens to hold. -/
def executeTransaction (self : Process) (accounts : List AccountInfo) (f : Frame) :
    Except ProgramError (Frame×List Event) :=
  match accounts with
  | multisigInfo::transactionInfo::executorInfo::clockSysvar::remaining => do
    requireSigner executorInfo
    let multisig ← loadMultisig fm f multisigInfo.key
    require (isSignerOf multisig executorInfo.key=true) (err .notASigner)
    let t ← loadTransaction fm f transactionInfo.key
    require (t.status≠.executed) (err .alreadyExecuted)
    require (t.status≠.rejected) (err .transactionRejected)
    require (t.status≠.cancelled) (err .alreadyCancelled)
    require (t.status≠.pending) (err .thresholdNotMet)
    h.requireClock clockSysvar
    let unlock ← okOr (if 0< multisig.timeLockSeconds.toInt then
      checkedAddSigned t.approvedAt multisig.timeLockSeconds else some clock.unixTimestamp)
      (err .overflow)
    require (unlock.toInt≤clock.unixTimestamp.toInt) (err .timeLockNotElapsed)
    let signer ← okOr (signerOf h multisig) .invalidSeeds
    let called ← invokeSigned h clock self ⟨h.programId,accounts⟩ remaining t.instruction signer f
    let f ← called.1.save fm.transaction
      {t with status := .executed,executedAt := clock.unixTimestamp} transactionInfo.key
    pure (f,called.2)
  | _ => notEnoughKeys

def plainInstruction (clock : Clock) (accounts : List AccountInfo) :
    Instruction → Frame → ProgramResult
  | .createMultisig threshold signers timeLockSeconds label =>
    createMultisig h fm threshold signers timeLockSeconds label accounts
  | .proposeTransaction instruction => proposeTransaction h fm clock instruction accounts
  | .approveTransaction => approveTransaction h fm clock accounts
  | .rejectTransaction => rejectTransaction fm accounts
  | .cancelTransaction => cancelTransaction fm accounts
  | .addSigner newSigner => addSigner fm newSigner accounts
  | .removeSigner signerToRemove => removeSigner fm signerToRemove accounts
  | .changeThreshold newThreshold => changeThreshold fm newThreshold accounts
  | .executeTransaction => fun _ => .error .invalidInstructionData

def processInstruction (self : Process) (clock : Clock) (accounts : List AccountInfo)
    (i : Instruction) (f : Frame) : Except ProgramError (Frame×List Event) :=
  match i with
  | .executeTransaction => executeTransaction h fm clock self accounts f
  | i => do
    let f ← plainInstruction h fm clock accounts i f
    pure (f,[])

def processTo : Nat → Process
  | 0 => fun _ _ => .error .callDepth
  | n+1 => fun c b => do
    let done ← processInstruction h fm (processTo n) c.clock c.accounts c.instruction ⟨b,b⟩
    Invocation.sync ⟨h.programId,c.accounts⟩ (c.accounts.map AccountInfo.key) done.1
    pure (done.1.view,⟨c,b⟩::done.2)

/-- The runtime allows a stack of five instructions. -/
def program : Program Instruction where
  id := h.programId
  process clock accounts i f :=
    (processInstruction h fm (processTo h fm 4) clock accounts i f).map Prod.fst

def eventsOf (c : Call Instruction) (b : Bank) : List Event :=
  match processTo h fm 5 c b with
  | .ok done => done.2
  | .error _ => []

end Handlers

def events (h : Runtime) (fm : Formats) (tr : Trace Instruction) : List Event :=
  tr.flatMap fun x =>
    match x.label with
    | .call c => eventsOf h fm c x.pre.bank
    | .outside => []

def signs (h : Runtime) (fm : Formats) (e : Event) : Option Pubkey :=
  match e.call.instruction with
  | .executeTransaction => do
    let k ← e.call.key? 0
    let multisig ← fm.multisig.load (e.bank k).data
    signerOf h multisig
  | _ => none

end PrismChain.PrismMultisig
