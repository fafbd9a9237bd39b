import PrismChain.Programs.BitcoinBridge.State

namespace PrismChain.BitcoinBridge

inductive Instruction where
  | initializeBridge (multisigAddresses : Vec (BitVec 272)) (attestors : Vec Pubkey)
      (threshold : U8)
  | submitDepositProof (btcTxid : BitVec 256) (vout : U32) (amountSats : U64)
      (recipientPubkey : Pubkey) (confirmations : U32)
  | confirmDeposit (btcTxid : BitVec 256) (vout : U32)
  | requestWithdrawal (amountSats : U64) (btcDestination : BitVec 496) (btcDestinationLen : U8)
  | processWithdrawal (nonce : U64) (btcTxid : BitVec 256)
  deriving DecidableEq

def statePda (h : Host) : Pubkey×U8 := h.findProgramAddress [stateSeed] h.programId

def mintPda (h : Host) : Pubkey×U8 := h.findProgramAddress [mintSeed] h.programId

def proofPda (h : Host) (btcTxid : BitVec 256) (vout : U32) : Pubkey×U8 :=
  h.findProgramAddress [proofSeed,leBytes 32 btcTxid.toNat,leBytes 4 vout.toNat] h.programId

def authorityPda (h : Host) : Pubkey×U8 := h.findProgramAddress [authoritySeed] h.programId

def withdrawalPda (h : Host) (nonce : U64) : Pubkey×U8 :=
  h.findProgramAddress [withdrawalSeed,leBytes 8 nonce.toNat] h.programId

def newState (admin scbtcMint : Pubkey) (multisigAddresses : Vec (BitVec 272))
    (attestors : Vec Pubkey) (threshold : U8) : BtcBridgeState where
  isInitialized := true
  admin := admin
  multisigAddresses := multisigAddresses
  threshold := threshold
  totalLockedSats := 0#64
  scbtcMint := scbtcMint
  attestors := attestors
  nonce := 0#64

def newProof (btcTxid : BitVec 256) (vout : U32) (amountSats : U64) (recipientPubkey : Pubkey)
    (confirmations : U32) (nonce : U64) : DepositProof where
  btcTxid := btcTxid
  vout := vout
  amountSats := amountSats
  recipientPubkey := recipientPubkey
  confirmations := confirmations
  attestorSignatures := ⟨[],short_nil⟩
  status := .pending
  nonce := nonce

def newWithdrawal (nonce amountSats : U64) (requester : Pubkey) (btcDestination : BitVec 496)
    (btcDestinationLen : U8) : WithdrawalRequest where
  nonce := nonce
  amountSats := amountSats
  requester := requester
  btcDestination := btcDestination
  btcDestinationLen := btcDestinationLen
  attestorSignatures := ⟨[],short_nil⟩
  status := .requested
  btcTxid := 0#256

def DepositProof.attested (p : DepositProof) (signatures : Vec Pubkey) (confirmations : U32)
    (threshold : U8) : DepositProof :=
  {p with
    attestorSignatures := signatures
    confirmations :=
      if p.confirmations.toNat<confirmations.toNat then confirmations else p.confirmations
    status := if threshold.toNat≤ signatures.val.length then .confirmed else p.status}

/-- `+=`, which wraps around. -/
def BtcBridgeState.credited (st : BtcBridgeState) (amountSats : U64) : BtcBridgeState :=
  {st with totalLockedSats := st.totalLockedSats+amountSats}

/-- `saturating_sub`, under the next nonce. -/
def BtcBridgeState.debited (st : BtcBridgeState) (amountSats : U64) : BtcBridgeState :=
  {st with
    nonce := st.nonce+1#64
    totalLockedSats := BitVec.ofNat 64 (st.totalLockedSats.toNat-amountSats.toNat)}

def WithdrawalRequest.signed (w : WithdrawalRequest) (signatures : Vec Pubkey) (threshold : U8)
    (btcTxid : BitVec 256) : WithdrawalRequest :=
  if threshold.toNat≤ signatures.val.length then
    {w with attestorSignatures := signatures,status := .broadcast,btcTxid := btcTxid}
  else {w with attestorSignatures := signatures,status := .signing}

section Handlers

variable (e : Deployment) (fm : Formats) (accounts : List AccountInfo)

def processInitialize (multisigAddresses : Vec (BitVec 272)) (attestors : Vec Pubkey)
    (threshold : U8) (f : Frame) : ProgramResult :=
  match accounts with
  | admin::bridgeState::scbtcMint::_token::_system::_rent::_ => do
    requireSigner admin
    require (threshold≠0#8 ∧ threshold.toNat≤attestors.val.length) .invalidArgument
    require (multisigAddresses.val≠[]) .invalidArgument
    require (bridgeState.key=(statePda e).1) .invalidSeeds
    require (scbtcMint.key=(mintPda e).1) .invalidSeeds
    let st := newState admin.key (mintPda e).1 multisigAddresses attestors threshold
    let space := (stateCodec.encode st).length
    let iv : Invocation := ⟨e.programId,accounts⟩
    let f ← iv.invoke [admin.key,bridgeState.key] (iv.createAccount admin.key bridgeState.key
      (e.minimumBalance space) space) f
    f.serialize fm.state st bridgeState.key
  | _ => notEnoughKeys

/-- The bridge state is whatever account the caller passes. -/
def loadState (f : Frame) (k : Pubkey) : Except ProgramError BtcBridgeState :=
  okOr (fm.state.load (f.view k).data) .borshIoError

def processSubmitDepositProof (btcTxid : BitVec 256) (vout : U32) (amountSats : U64)
    (recipientPubkey : Pubkey) (confirmations : U32) (f : Frame) : ProgramResult :=
  match accounts with
  | attestor::bridgeState::depositProof::_system::_ => do
    requireSigner attestor
    let st ← loadState fm f bridgeState.key
    require (st.isInitialized=true) .uninitializedAccount
    require (attestor.key∈st.attestors.val) .invalidAccountData
    require (6≤confirmations.toNat) .invalidArgument
    require (depositProof.key=(proofPda e btcTxid vout).1) .invalidSeeds
    let first := newProof btcTxid vout amountSats recipientPubkey confirmations (st.nonce+1#64)
    let space := (proofCodec.encode first).length+32*st.attestors.val.length
    let (p,f) ← Invocation.openOr ⟨e.programId,accounts⟩ e fm.proof fm.started attestor.key
      depositProof.key space first f
    require (attestor.key∉p.attestorSignatures.val) .invalidArgument
    let signatures ← okOr (p.attestorSignatures.push attestor.key) .borshIoError
    f.serialize fm.proof (p.attested signatures confirmations st.threshold) depositProof.key
  | _ => notEnoughKeys

/-- Neither the mint nor the owner of the token account is checked, and nobody has to sign. -/
def processConfirmDeposit (btcTxid : BitVec 256) (vout : U32) (f : Frame)  : ProgramResult :=
  match accounts with
  | _caller::bridgeState::depositProof::mint::recipientToken::mintAuthority::tokenProgram::_ => do
    let st ← loadState fm f bridgeState.key
    let p ← okOr (fm.proof.load (f.view depositProof.key).data) .borshIoError
    require (p.status=.confirmed) .invalidAccountData
    require (p.btcTxid=btcTxid ∧ p.vout=vout) .invalidArgument
    require (mintAuthority.key=(authorityPda e).1) .invalidSeeds
    let f ← e.invokeSpl ⟨e.programId,accounts⟩ tokenProgram.key mintToIndex mint.key
      recipientToken.key mintAuthority.key p.amountSats f
    let f ← f.serialize fm.proof {p with status := .minted} depositProof.key
    f.serialize fm.state (st.credited p.amountSats) bridgeState.key
  | _ => notEnoughKeys

/-- The mint is whatever account the caller passes. -/
def processRequestWithdrawal (amountSats : U64) (btcDestination : BitVec 496)
    (btcDestinationLen : U8) (f : Frame) : ProgramResult :=
  match accounts with
  | user::userToken::mint::bridgeState::withdrawal::tokenProgram::_system::_ => do
    requireSigner user
    require (amountSats≠0#64) .invalidArgument
    require (10000≤amountSats.toNat) .invalidArgument
    let st ← loadState fm f bridgeState.key
    let iv : Invocation := ⟨e.programId,accounts⟩
    let f ← e.invokeSpl iv tokenProgram.key burnIndex userToken.key mint.key user.key amountSats f
    let st := st.debited amountSats
    require (withdrawal.key=(withdrawalPda e st.nonce).1) .invalidSeeds
    let w := newWithdrawal st.nonce amountSats user.key btcDestination btcDestinationLen
    let space := (withdrawalCodec.encode w).length+32*st.attestors.val.length
    let f ← iv.invoke [user.key,withdrawal.key] (iv.createAccount user.key withdrawal.key
      (e.minimumBalance space) space) f
    let f ← f.serialize fm.withdrawal w withdrawal.key
    f.serialize fm.state st bridgeState.key
  | _ => notEnoughKeys

def processProcessWithdrawal (nonce : U64) (btcTxid : BitVec 256) (f : Frame)  : ProgramResult :=
  match accounts with
  | attestor::bridgeState::withdrawal::_ => do
    requireSigner attestor
    let st ← loadState fm f bridgeState.key
    require (attestor.key∈st.attestors.val) .invalidAccountData
    let w ← okOr (fm.withdrawal.load (f.view withdrawal.key).data) .borshIoError
    require (w.nonce=nonce) .invalidArgument
    require (w.status≠.confirmed ∧ w.status≠.failed) .invalidAccountData
    require (attestor.key∉w.attestorSignatures.val) .invalidArgument
    let signatures ← okOr (w.attestorSignatures.push attestor.key) .borshIoError
    f.serialize fm.withdrawal (w.signed signatures st.threshold btcTxid) withdrawal.key
  | _ => notEnoughKeys

def processInstruction : Instruction → Frame → ProgramResult
  | .initializeBridge multisigAddresses attestors threshold =>
      processInitialize e fm accounts multisigAddresses attestors threshold
  | .submitDepositProof btcTxid vout amountSats recipientPubkey confirmations =>
      processSubmitDepositProof e fm accounts btcTxid vout amountSats recipientPubkey confirmations
  | .confirmDeposit btcTxid vout => processConfirmDeposit e fm accounts btcTxid vout
  | .requestWithdrawal amountSats btcDestination btcDestinationLen =>
      processRequestWithdrawal e fm accounts amountSats btcDestination btcDestinationLen
  | .processWithdrawal nonce btcTxid => processProcessWithdrawal fm accounts nonce btcTxid

end Handlers

def program (e : Deployment) (fm : Formats) : Program Instruction :=
  ⟨e.programId,fun _ accounts => processInstruction e fm accounts⟩

end PrismChain.BitcoinBridge
