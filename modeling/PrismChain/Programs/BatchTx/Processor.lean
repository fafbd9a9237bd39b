import PrismChain.Framework.Payment
import PrismChain.Programs.BatchTx.State

namespace PrismChain.BatchTx

open FixedWidth

inductive Instruction where
  | batchTransfer (recipients : List BatchRecipient)
  | createScheduledTransfer (recipient : Pubkey) (amount executeAtSlot : U64)
      (executeAtTimestamp : I64) (nonce : U64)
  | executeScheduledTransfer
  | cancelScheduledTransfer
  | createConditionalTransfer (recipient : Pubkey) (amount : U64) (conditionAccount : Pubkey)
      (conditionType : ConditionType) (threshold : U64) (ttlSeconds : I64)
  | executeConditionalTransfer
  | createRecurringTransfer (recipient : Pubkey) (amount : U64) (intervalSeconds : I64)
      (maxExecutions nonce : U64)
  | executeRecurringTransfer
  deriving DecidableEq

def recordPda (h : Host) (κ : Kind) (x : κ.Record) : Pubkey :=
  (h.findProgramAddress (κ.seeds x) h.programId).1

def escrowPda (h : Host) (record : Pubkey) : Pubkey :=
  (h.findProgramAddress [escrowSeed,record.bytes] h.programId).1

def payRecipients (iv : Invocation) (sender : Pubkey) :
    List BatchRecipient → List AccountInfo → Frame → ProgramResult
  | [],_,f => pure f
  | r::rs,accounts,f =>
    if r.amount=0#64 then payRecipients iv sender rs accounts f
    else match accounts with
    | recipientAccount::rest => do
      require (recipientAccount.key=r.address) .invalidAccountData
      let f ← iv.invoke [sender,recipientAccount.key] (iv.transfer sender r.address r.amount) f
      payRecipients iv sender rs rest f
    | [] => notEnoughKeys

def totalAmount (recipients : List BatchRecipient) : Option U64 :=
  recipients.foldlM (fun acc r => checkedAdd acc r.amount) 0#64

def processBatchTransfer (h : Host) (accounts : List AccountInfo)
    (recipients : List BatchRecipient) (f : Frame) : ProgramResult := do
  require (recipients≠[] ∧ recipients.length≤ maxBatchRecipients) (err .tooManyRecipients)
  match accounts with
  | sender::_system::rest => do
    requireSigner sender
    let total ← okOr (totalAmount recipients) (err .overflow)
    require (total.toNat≤(f.view sender.key).lamports.toNat) (err .insufficientFunds)
    payRecipients ⟨h.programId,accounts⟩ sender.key recipients rest f
  | _ => notEnoughKeys

def openTransfer (h : Host) (accounts : List AccountInfo) (κ : Kind)
    (creator record escrow : Pubkey) (deposit : U64) (x : κ.Record) (f : Frame) :
    ProgramResult := do
  require (recordPda h κ x=record) (err .invalidPda)
  require (escrowPda h record=escrow) (err .invalidPda)
  let iv : Invocation := ⟨h.programId,accounts⟩
  let f ← iv.invoke [creator,record]
    (iv.createAccount creator record (h.minimumBalance κ.size) κ.size) f
  let f ← iv.invoke [creator,escrow] (iv.createAccount creator escrow deposit 0) f
  f.store κ.codec x record

def newScheduled (h : Host) (creator recipient : Pubkey) (amount executeAtSlot : U64)
    (executeAtTimestamp : I64) (nonce : U64) (now : I64) : ScheduledTransfer :=
  ⟨true,.pending,creator,recipient,amount,executeAtSlot,executeAtTimestamp,now,0#64,
    (h.findProgramAddress [scheduleSeed,creator.bytes,leBytes 8 nonce.toNat] h.programId).2,nonce⟩

/-- A slot and a time of zero are no conditions at all. -/
def processCreateScheduled (h : Host) (clock : Clock) (accounts : List AccountInfo)
    (recipient : Pubkey) (amount executeAtSlot : U64) (executeAtTimestamp : I64) (nonce : U64)
    (f : Frame) : ProgramResult :=
  match accounts with
  | creator::scheduleAccount::escrowAccount::_system::_ => do
    requireSigner creator
    require (amount≠0#64) (err .invalidAmount)
    require (¬(0<executeAtSlot.toNat ∧
      executeAtSlot.toNat<(clock.slot+minScheduleDelaySlots).toNat)) (err .scheduleTooSoon)
    require (¬(0<executeAtTimestamp.toInt ∧ executeAtTimestamp.toInt≤clock.unixTimestamp.toInt))
      (err .scheduleTooSoon)
    openTransfer h accounts .scheduled creator.key scheduleAccount.key escrowAccount.key amount
      (newScheduled h creator.key recipient amount executeAtSlot executeAtTimestamp nonce
        clock.unixTimestamp) f
  | _ => notEnoughKeys

def loadPending (h : Host) (κ : Kind) (f : Frame) (k : Pubkey) : Except ProgramError κ.Record := do
  require ((f.view k).owner=h.programId) .incorrectProgramId
  let x ← okOr (κ.codec.tryFromSlice (f.view k).data) .borshIoError
  require (κ.isInitialized x=true) (err .notInitialized)
  require (κ.status x=.pending) (err .alreadyExecuted)
  pure x

def ScheduledTransfer.ready (x : ScheduledTransfer) (clock : Clock) : Bool :=
  (x.executeAtSlot=0#64 ∨ x.executeAtSlot.toNat≤clock.slot.toNat) ∧
    (x.executeAtTimestamp=0#64 ∨ x.executeAtTimestamp.toInt≤clock.unixTimestamp.toInt)

/-- Anybody may execute. The account passed as the escrow is not compared with the escrow of the
record, here and in the three handlers below. -/
def processExecuteScheduled (h : Host) (clock : Clock) (accounts : List AccountInfo) (f : Frame) :
    ProgramResult :=
  match accounts with
  | _executor::scheduleAccount::escrowAccount::recipientAccount::_system::_ => do
    let transfer : ScheduledTransfer ← loadPending h .scheduled f scheduleAccount.key
    require (recipientAccount.key=transfer.recipient) .invalidAccountData
    require (transfer.ready clock=true) (err .notYetDue)
    let f ← f.drain escrowAccount.key recipientAccount.key (err .overflow)
    f.store scheduledCodec {transfer with status := .executed,executedAt := clock.unixTimestamp}
      scheduleAccount.key
  | _ => notEnoughKeys

def processCancelScheduled (h : Host) (accounts : List AccountInfo) (f : Frame)  : ProgramResult :=
  match accounts with
  | creator::scheduleAccount::escrowAccount::_system::_ => do
    requireSigner creator
    let transfer : ScheduledTransfer ← loadPending h .scheduled f scheduleAccount.key
    require (transfer.creator=creator.key) (err .unauthorized)
    let f ← f.drain escrowAccount.key creator.key (err .overflow)
    f.store scheduledCodec {transfer with status := .cancelled} scheduleAccount.key
  | _ => notEnoughKeys

def newConditional (h : Host) (creator recipient : Pubkey) (amount : U64)
    (conditionAccount : Pubkey) (conditionType : ConditionType) (threshold : U64)
    (ttlSeconds now : I64) : ConditionalTransfer :=
  ⟨true,.pending,creator,recipient,amount,conditionAccount,conditionType,threshold,
    saturatingAddSigned now ttlSeconds,now,(h.findProgramAddress [conditionalSeed,creator.bytes,
      conditionAccount.bytes,leBytes 8 amount.toNat] h.programId).2⟩

def processCreateConditional (h : Host) (clock : Clock) (accounts : List AccountInfo)
    (recipient : Pubkey) (amount : U64) (conditionAccount : Pubkey) (conditionType : ConditionType)
    (threshold : U64) (ttlSeconds : I64) (f : Frame) : ProgramResult :=
  match accounts with
  | creator::condTransferAccount::escrowAccount::_system::_ => do
    requireSigner creator
    require (amount≠0#64) (err .invalidAmount)
    openTransfer h accounts .conditional creator.key condTransferAccount.key
      escrowAccount.key amount
      (newConditional h creator.key recipient amount conditionAccount conditionType threshold
        ttlSeconds clock.unixTimestamp) f
  | _ => notEnoughKeys

def ConditionalTransfer.conditionMet (x : ConditionalTransfer) (balance : U64) : Bool :=
  match x.conditionType with
  | .balanceAbove => x.threshold.toNat≤balance.toNat
  | .balanceBelow => balance.toNat≤x.threshold.toNat

def processExecuteConditional (h : Host) (clock : Clock) (accounts : List AccountInfo) (f : Frame) :
    ProgramResult :=
  match accounts with
  | _executor::condAccount::escrowAccount::recipientAccount::conditionCheckAccount::_system::_ => do
    let cond : ConditionalTransfer ← loadPending h .conditional f condAccount.key
    require (recipientAccount.key=cond.recipient) .invalidAccountData
    require (conditionCheckAccount.key=cond.conditionAccount) .invalidAccountData
    require (clock.unixTimestamp.toInt≤cond.expiresAt.toInt) (err .alreadyExecuted)
    require (cond.conditionMet (f.view conditionCheckAccount.key).lamports=true)
      (err .conditionNotMet)
    let f ← f.drain escrowAccount.key recipientAccount.key (err .overflow)
    f.store conditionalCodec {cond with status := .executed} condAccount.key
  | _ => notEnoughKeys

def newRecurring (h : Host) (creator recipient : Pubkey) (amount : U64) (intervalSeconds : I64)
    (maxExecutions nonce : U64) (now : I64) : RecurringTransfer :=
  ⟨true,.pending,creator,recipient,amount,intervalSeconds,maxExecutions,0#64,now,now,
    (h.findProgramAddress [recurringSeed,creator.bytes,leBytes 8 nonce.toNat] h.programId).2,nonce⟩

/-- Without a limit, twelve executions are paid for in advance. -/
def processCreateRecurring (h : Host) (clock : Clock) (accounts : List AccountInfo)
    (recipient : Pubkey) (amount : U64) (intervalSeconds : I64) (maxExecutions nonce : U64)
    (f : Frame) : ProgramResult :=
  match accounts with
  | creator::recurringAccount::escrowAccount::_system::_ => do
    requireSigner creator
    require (amount≠0#64) (err .invalidAmount)
    require (0< intervalSeconds.toInt) (err .invalidAmount)
    let totalEscrow ← okOr (checkedMul amount (if maxExecutions=0#64 then 12#64 else maxExecutions))
      (err .overflow)
    openTransfer h accounts .recurring creator.key recurringAccount.key
      escrowAccount.key totalEscrow
      (newRecurring h creator.key recipient amount intervalSeconds maxExecutions nonce
        clock.unixTimestamp) f
  | _ => notEnoughKeys

def RecurringTransfer.afterExecution (x : RecurringTransfer) (completed : U64) (now : I64) :
    RecurringTransfer :=
  {x with
    executionsCompleted := completed
    lastExecutedAt := now
    status := if 0<x.maxExecutions.toNat ∧ x.maxExecutions.toNat≤completed.toNat then .executed
      else x.status}

/-- What is left in the escrow after the last execution stays there. -/
def processExecuteRecurring (h : Host) (clock : Clock) (accounts : List AccountInfo) (f : Frame) :
    ProgramResult :=
  match accounts with
  | _executor::recurringAccount::escrowAccount::recipientAccount::_system::_ => do
    let recurring : RecurringTransfer ← loadPending h .recurring f recurringAccount.key
    require (recipientAccount.key=recurring.recipient) .invalidAccountData
    require (recurring.intervalSeconds.toInt≤
      (saturatingSubSigned clock.unixTimestamp recurring.lastExecutedAt).toInt)
      (err .intervalNotElapsed)
    require (recurring.amount.toNat≤(f.view escrowAccount.key).lamports.toNat)
      (err .insufficientFunds)
    let f ← f.pay escrowAccount.key recipientAccount.key recurring.amount (err .overflow)
    let completed ← okOr (checkedAdd recurring.executionsCompleted 1#64) (err .overflow)
    f.store recurringCodec
      (recurring.afterExecution completed clock.unixTimestamp) recurringAccount.key
  | _ => notEnoughKeys

def processInstruction (h : Host) (clock : Clock) (accounts : List AccountInfo) :
    Instruction → Frame → ProgramResult
  | .batchTransfer recipients => processBatchTransfer h accounts recipients
  | .createScheduledTransfer recipient amount executeAtSlot executeAtTimestamp nonce =>
      processCreateScheduled h clock accounts recipient amount executeAtSlot
        executeAtTimestamp nonce
  | .executeScheduledTransfer => processExecuteScheduled h clock accounts
  | .cancelScheduledTransfer => processCancelScheduled h accounts
  | .createConditionalTransfer recipient amount conditionAccount conditionType
      threshold ttlSeconds =>
      processCreateConditional h clock accounts recipient amount conditionAccount conditionType
        threshold ttlSeconds
  | .executeConditionalTransfer => processExecuteConditional h clock accounts
  | .createRecurringTransfer recipient amount intervalSeconds maxExecutions nonce =>
      processCreateRecurring h clock accounts recipient amount intervalSeconds maxExecutions nonce
  | .executeRecurringTransfer => processExecuteRecurring h clock accounts

def program (h : Host) : Program Instruction := ⟨h.programId,processInstruction h⟩

end PrismChain.BatchTx
