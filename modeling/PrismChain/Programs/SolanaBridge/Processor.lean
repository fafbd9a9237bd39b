import PrismChain.Framework.Cells
import PrismChain.Programs.SolanaBridge.State

namespace PrismChain.SolanaBridge

inductive Instruction where
  | initializeBridge (solanaRpc : BitVec 1024) (solanaRpcLen : U8) (guardianSet : Vec Pubkey)
      (guardianThreshold : U8)
  | lockToken (amount : U64) (recipient : Pubkey)
  | mintToken (nonce amount : U64) (senderOnSolana recipient tokenSolanaMint : Pubkey)
  | burnAndRelease (amount : U64) (recipientOnSolana : Pubkey)
  deriving DecidableEq

def statePda (h : Host) : Pubkey×U8 := h.findProgramAddress [bridgeStateSeed] h.programId

def recordPda (h : Host) (nonce : U64) : Pubkey×U8 :=
  h.findProgramAddress [transferSeed,leBytes 8 nonce.toNat] h.programId

def authorityPda (h : Host) : Pubkey×U8 := h.findProgramAddress [mintAuthoritySeed] h.programId

def newState (admin : Pubkey) (solanaRpc : BitVec 1024) (solanaRpcLen : U8)
    (guardianSet : Vec Pubkey) (guardianThreshold : U8) : SolanaBridgeState where
  isInitialized := true
  admin := admin
  solanaRpc := solanaRpc
  solanaRpcLen := solanaRpcLen
  guardianSet := guardianSet
  guardianThreshold := guardianThreshold
  tokenMappings := ⟨[],short_nil⟩
  nonce := 0#64
  totalTransfers := 0#64

def outbound (nonce : U64) (tokenMint : Pubkey) (amount : U64) (sender recipient : Pubkey)
    (status : TransferStatus) : TransferRecord where
  nonce := nonce
  fromChain := 4#8
  toChain := 3#8
  tokenMint := tokenMint
  amount := amount
  sender := sender
  recipient := recipient
  status := status
  guardianSignatures := ⟨[],short_nil⟩
  createdAt := 0#64

def inbound (nonce : U64) (tokenMint : Pubkey) (amount : U64) (sender recipient : Pubkey) :
    TransferRecord where
  nonce := nonce
  fromChain := 3#8
  toChain := 4#8
  tokenMint := tokenMint
  amount := amount
  sender := sender
  recipient := recipient
  status := .initiated
  guardianSignatures := ⟨[],short_nil⟩
  createdAt := 0#64

/-- The nonce counts up and wraps around. -/
def SolanaBridgeState.counted (st : SolanaBridgeState) : SolanaBridgeState :=
  {st with nonce := st.nonce+1#64}

def SolanaBridgeState.transferred (st : SolanaBridgeState) : SolanaBridgeState :=
  {st with totalTransfers := st.totalTransfers+1#64}

def signedSpace (r : TransferRecord) (st : SolanaBridgeState) : Nat :=
  (recordCodec.encode r).length+32*st.guardianSet.val.length

section Handlers

variable (e : Deployment) (fm : Formats) (accounts : List AccountInfo)

def processInitialize (solanaRpc : BitVec 1024) (solanaRpcLen : U8) (guardianSet : Vec Pubkey)
    (guardianThreshold : U8) (f : Frame) : ProgramResult :=
  match accounts with
  | admin::bridgeState::_system::_ => do
    requireSigner admin
    require (guardianThreshold≠0#8 ∧ guardianThreshold.toNat≤guardianSet.val.length)
      .invalidArgument
    require (bridgeState.key=(statePda e).1) .invalidSeeds
    let st := newState admin.key solanaRpc solanaRpcLen guardianSet guardianThreshold
    let space := (stateCodec.encode st).length+256
    let iv : Invocation := ⟨e.programId,accounts⟩
    let f ← iv.invoke [admin.key,bridgeState.key] (iv.createAccount admin.key bridgeState.key
      (e.minimumBalance space) space) f
    f.serialize fm.state st bridgeState.key
  | _ => notEnoughKeys

/-- The bridge state is whatever account the caller passes. -/
def loadState (f : Frame) (k : Pubkey) : Except ProgramError SolanaBridgeState :=
  okOr (fm.state.load (f.view k).data) .borshIoError

def recordOutbound (user bridgeState record : Pubkey) (st : SolanaBridgeState) (r : TransferRecord)
    (space : Nat) (f : Frame) : ProgramResult := do
  require (record=(recordPda e r.nonce).1) .invalidSeeds
  let iv : Invocation := ⟨e.programId,accounts⟩
  let f ← iv.invoke [user,record] (iv.createAccount user record (e.minimumBalance space) space) f
  let f ← f.serialize fm.record r record
  f.serialize fm.state st.counted bridgeState

def processLockToken (amount : U64) (recipient : Pubkey) (f : Frame) : ProgramResult :=
  match accounts with
  | user::userToken::vaultToken::bridgeState::transferRecord::tokenProgram::_system::_ => do
    requireSigner user
    require (amount≠0#64) .invalidArgument
    let st ← loadState fm f bridgeState.key
    require (st.isInitialized=true) .uninitializedAccount
    let f ← e.invokeSpl ⟨e.programId,accounts⟩ tokenProgram.key transferIndex userToken.key
      vaultToken.key user.key amount f
    let r := outbound st.counted.nonce vaultToken.key amount user.key recipient .locked
    recordOutbound e fm accounts user.key bridgeState.key transferRecord.key st r
      (signedSpace r st) f
  | _ => notEnoughKeys

/-- Whether the bridge is initialized is not asked here, and the record has no room for
signatures. -/
def processBurnAndRelease (amount : U64) (recipientOnSolana : Pubkey) (f : Frame) :
    ProgramResult :=
  match accounts with
  | user::userToken::mint::bridgeState::transferRecord::tokenProgram::_system::_ => do
    requireSigner user
    require (amount≠0#64) .invalidArgument
    let st ← loadState fm f bridgeState.key
    let f ← e.invokeSpl ⟨e.programId,accounts⟩ tokenProgram.key burnIndex userToken.key mint.key
      user.key amount f
    let r := outbound st.counted.nonce mint.key amount user.key recipientOnSolana .initiated
    recordOutbound e fm accounts user.key bridgeState.key transferRecord.key st r
      (recordCodec.encode r).length f
  | _ => notEnoughKeys

/-- The record that the guardians sign: the one that is there, whoever made it, or a new one with
what this guardian says. -/
def openInbound (guardian record : Pubkey) (st : SolanaBridgeState)
    (r : TransferRecord) (f : Frame) :
    Except ProgramError (TransferRecord×Frame) :=
  Invocation.openOr ⟨e.programId,accounts⟩ e fm.record fm.started guardian record
    (signedSpace r st) r f

/-- With enough signatures, and with every further one, the amount of the last caller is minted. -/
def settleInbound (record bridgeState mint recipientToken mintAuthority tokenProgram : Pubkey)
    (st : SolanaBridgeState) (r : TransferRecord) (signatures : Vec Pubkey) (amount : U64)
    (f : Frame) : ProgramResult :=
  if st.guardianThreshold.toNat≤ signatures.val.length then do
    require (mintAuthority=(authorityPda e).1) .invalidSeeds
    let f ← e.invokeSpl ⟨e.programId,accounts⟩ tokenProgram mintToIndex mint recipientToken
      mintAuthority amount f
    let f ← f.serialize fm.record
      {r with status := .completed,guardianSignatures := signatures} record
    f.serialize fm.state st.transferred bridgeState
  else do
    let f ← f.serialize fm.record
      {r with status := .attested,guardianSignatures := signatures} record
    f.serialize fm.state st bridgeState

def processMintToken (nonce amount : U64) (senderOnSolana recipient : Pubkey) (f : Frame) :
    ProgramResult :=
  match accounts with
  | guardian::bridgeState::transferRecord::mint::recipientToken::mintAuthority::tokenProgram::
      _system::_ => do
    requireSigner guardian
    let st ← loadState fm f bridgeState.key
    require (guardian.key∈st.guardianSet.val) .invalidAccountData
    require (transferRecord.key=(recordPda e nonce).1) .invalidSeeds
    let (r,f) ← openInbound e fm accounts guardian.key transferRecord.key st
      (inbound nonce mint.key amount senderOnSolana recipient) f
    require (guardian.key∉r.guardianSignatures.val) .invalidArgument
    let signatures ← okOr (r.guardianSignatures.push guardian.key) .borshIoError
    settleInbound e fm accounts transferRecord.key bridgeState.key mint.key recipientToken.key
      mintAuthority.key tokenProgram.key st r signatures amount f
  | _ => notEnoughKeys

/-- The mint on Solana that a guardian names is not looked at. -/
def processInstruction : Instruction → Frame → ProgramResult
  | .initializeBridge rpc len guardianSet guardianThreshold =>
      processInitialize e fm accounts rpc len guardianSet guardianThreshold
  | .lockToken amount recipient => processLockToken e fm accounts amount recipient
  | .mintToken nonce amount sender recipient _ =>
      processMintToken e fm accounts nonce amount sender recipient
  | .burnAndRelease amount recipient => processBurnAndRelease e fm accounts amount recipient

end Handlers

def program (e : Deployment) (fm : Formats) : Program Instruction :=
  ⟨e.programId,fun _ accounts => processInstruction e fm accounts⟩

end PrismChain.SolanaBridge
