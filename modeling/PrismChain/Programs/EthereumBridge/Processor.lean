import PrismChain.Programs.EthereumBridge.State

namespace PrismChain.EthereumBridge

inductive Instruction where
  | initializeBridge (ethereumContractAddress : BitVec 160) (guardians : Vec Pubkey)
      (guardianThreshold : U8)
  | registerToken (originalChain : U8) (originalAddress name : BitVec 256) (symbol : BitVec 64)
      (decimals : U8)
  | lockAndMint (amount : U64) (recipientEthAddress : BitVec 160)
  | submitVaa (nonce amount : U64) (senderEthAddress : BitVec 160) (recipient : Pubkey)
      (tokenOriginalAddress : BitVec 256)
  | completeTransfer (nonce : U64)
  | redeem (amount : U64) (recipientEthAddress : BitVec 160)
  deriving DecidableEq

def statePda (h : Host) : Pubkey×U8 := h.findProgramAddress [stateSeed] h.programId

def wrappedPda (h : Host) (originalAddress : BitVec 256) : Pubkey×U8 :=
  h.findProgramAddress [wrappedSeed,leBytes 32 originalAddress.toNat] h.programId

def mintPda (h : Host) (originalAddress : BitVec 256) : Pubkey×U8 :=
  h.findProgramAddress [mintSeed,leBytes 32 originalAddress.toNat] h.programId

def txPda (h : Host) (nonce : U64) : Pubkey×U8 :=
  h.findProgramAddress [txSeed,leBytes 8 nonce.toNat] h.programId

def authorityPda (h : Host) : Pubkey×U8 := h.findProgramAddress [authoritySeed] h.programId

/-- `padded[12..32].copy_from_slice(..)`: an address of 20 bytes at the end of 32. -/
def padded (address : BitVec 160) : BitVec 256 := BitVec.ofNat 256 (address.toNat*2^96)

def newState (admin : Pubkey) (ethereumContractAddress : BitVec 160) (guardians : Vec Pubkey)
    (guardianThreshold : U8) : BridgeState where
  isInitialized := true
  admin := admin
  ethereumContractAddress := ethereumContractAddress
  totalLocked := 0#64
  totalMinted := 0#64
  nonce := 0#64
  guardians := guardians
  guardianThreshold := guardianThreshold

def outbound (nonce : U64) (token : Pubkey) (amount : U64) (sender : Pubkey)
    (recipientEthAddress : BitVec 160) : BridgeTransaction where
  nonce := nonce
  fromChain := 4#8
  toChain := 1#8
  token := token
  amount := amount
  sender := sender
  recipient := padded recipientEthAddress
  status := .pending
  signatures := ⟨[],short_nil⟩

def inbound (nonce amount : U64) (senderEthAddress : BitVec 160) (recipient : Pubkey)
    (tokenOriginalAddress : BitVec 256) : BridgeTransaction where
  nonce := nonce
  fromChain := 1#8
  toChain := 4#8
  token := tokenOriginalAddress
  amount := amount
  sender := padded senderEthAddress
  recipient := recipient
  status := .pending
  signatures := ⟨[],short_nil⟩

def BridgeState.locked (st : BridgeState) (amount : U64) : BridgeState :=
  {st with nonce := st.nonce+1#64,totalLocked := st.totalLocked+amount}

def BridgeState.redeemed (st : BridgeState) (amount : U64) : BridgeState :=
  {st with
    nonce := st.nonce+1#64
    totalMinted := BitVec.ofNat 64 (st.totalMinted.toNat-amount.toNat)}

def BridgeState.minted (st : BridgeState) (amount : U64) : BridgeState :=
  {st with totalMinted := st.totalMinted+amount}

/-- One more signature; the status is set once more with every signature over the threshold. -/
def BridgeTransaction.attested (r : BridgeTransaction) (signatures : Vec Pubkey)
    (guardianThreshold : U8) : BridgeTransaction :=
  {r with
    signatures := signatures
    status := if guardianThreshold.toNat≤ signatures.val.length then .confirmed else r.status}

section Handlers

variable (e : Deployment) (fm : Formats) (accounts : List AccountInfo)

def processInitializeBridge (ethereumContractAddress : BitVec 160) (guardians : Vec Pubkey)
    (guardianThreshold : U8) (f : Frame) : ProgramResult :=
  match accounts with
  | admin::bridgeState::_system::_ => do
    requireSigner admin
    require (guardianThreshold≠0#8 ∧ guardianThreshold.toNat≤guardians.val.length) .invalidArgument
    require (bridgeState.key=(statePda e).1) .invalidSeeds
    let st := newState admin.key ethereumContractAddress guardians guardianThreshold
    let space := (stateCodec.encode st).length
    let iv : Invocation := ⟨e.programId,accounts⟩
    let f ← iv.invoke [admin.key,bridgeState.key] (iv.createAccount admin.key bridgeState.key
      (e.minimumBalance space) space) f
    f.serialize fm.state st bridgeState.key
  | _ => notEnoughKeys

/-- The bridge state is whatever account the caller passes. -/
def loadState (f : Frame) (k : Pubkey) : Except ProgramError BridgeState :=
  okOr (fm.state.load (f.view k).data) .borshIoError

def processRegisterToken (originalChain : U8) (originalAddress name : BitVec 256)
    (symbol : BitVec 64)
    (decimals : U8) (f : Frame) : ProgramResult :=
  match accounts with
  | admin::bridgeState::wrappedToken::mint::_token::_system::_rent::_ => do
    requireSigner admin
    let st ← loadState fm f bridgeState.key
    require (st.isInitialized=true) .uninitializedAccount
    require (st.admin=admin.key) .invalidAccountData
    require (wrappedToken.key=(wrappedPda e originalAddress).1) .invalidSeeds
    require (mint.key=(mintPda e originalAddress).1) .invalidSeeds
    let w : WrappedToken :=
      ⟨true,originalChain,originalAddress,(mintPda e originalAddress).1,
      name,symbol,decimals⟩
    let space := (wrappedCodec.encode w).length
    let iv : Invocation := ⟨e.programId,accounts⟩
    let f ← iv.invoke [admin.key,wrappedToken.key] (iv.createAccount admin.key wrappedToken.key
      (e.minimumBalance space) space) f
    f.serialize fm.wrapped w wrappedToken.key
  | _ => notEnoughKeys

def recordOutbound (user bridgeState tx : Pubkey) (st : BridgeState) (r : BridgeTransaction)
    (f : Frame) : ProgramResult := do
  require (tx=(txPda e r.nonce).1) .invalidSeeds
  let iv : Invocation := ⟨e.programId,accounts⟩
  let space := (txCodec.encode r).length
  let f ← iv.invoke [user,tx] (iv.createAccount user tx (e.minimumBalance space) space) f
  let f ← f.serialize fm.tx r tx
  f.serialize fm.state st bridgeState

def processLockAndMint (amount : U64) (recipientEthAddress : BitVec 160) (f : Frame) :
    ProgramResult :=
  match accounts with
  | user::userToken::vaultToken::bridgeState::bridgeTx::tokenProgram::_system::_ => do
    requireSigner user
    require (amount≠0#64) .invalidArgument
    let st ← loadState fm f bridgeState.key
    require (st.isInitialized=true) .uninitializedAccount
    let f ← e.invokeSpl ⟨e.programId,accounts⟩ tokenProgram.key transferIndex userToken.key
      vaultToken.key user.key amount f
    let st := st.locked amount
    recordOutbound e fm accounts user.key bridgeState.key bridgeTx.key st
      (outbound st.nonce vaultToken.key amount user.key recipientEthAddress) f
  | _ => notEnoughKeys

/-- The transaction that the guardians sign. An account whose first byte is 0 is taken for a new
one, which gets what this guardian says. -/
def openTx (tx : Pubkey) (r : BridgeTransaction) (f : Frame) :
    Except ProgramError BridgeTransaction :=
  if fm.started (f.view tx).data then okOr (fm.tx.load (f.view tx).data) .borshIoError else pure r

/-- The transaction account is whatever account the caller passes. -/
def processSubmitVaa (nonce amount : U64) (senderEthAddress : BitVec 160) (recipient : Pubkey)
    (tokenOriginalAddress : BitVec 256) (f : Frame) : ProgramResult :=
  match accounts with
  | guardian::bridgeState::bridgeTx::_ => do
    requireSigner guardian
    let st ← loadState fm f bridgeState.key
    require (st.isInitialized=true) .uninitializedAccount
    require (guardian.key∈st.guardians.val) .invalidAccountData
    let r ← openTx fm bridgeTx.key
      (inbound nonce amount senderEthAddress recipient tokenOriginalAddress) f
    require (guardian.key∉r.signatures.val) .invalidArgument
    let signatures ← okOr (r.signatures.push guardian.key) .borshIoError
    f.serialize fm.tx (r.attested signatures st.guardianThreshold) bridgeTx.key
  | _ => notEnoughKeys

/-- Neither the mint nor the owner of the token account is checked, and nobody has to sign. -/
def processCompleteTransfer (nonce : U64) (f : Frame) : ProgramResult :=
  match accounts with
  | _relayer::bridgeState::bridgeTx::mint::recipientToken::mintAuthority::tokenProgram::_ => do
    let st ← loadState fm f bridgeState.key
    let r ← okOr (fm.tx.load (f.view bridgeTx.key).data) .borshIoError
    require (r.status=.confirmed) .invalidAccountData
    require (r.nonce=nonce) .invalidArgument
    require (mintAuthority.key=(authorityPda e).1) .invalidSeeds
    let f ← e.invokeSpl ⟨e.programId,accounts⟩ tokenProgram.key mintToIndex mint.key
      recipientToken.key mintAuthority.key r.amount f
    let f ← f.serialize fm.tx {r with status := .completed} bridgeTx.key
    f.serialize fm.state (st.minted r.amount) bridgeState.key
  | _ => notEnoughKeys

/-- Whether the bridge is initialized is not asked here. -/
def processRedeem (amount : U64) (recipientEthAddress : BitVec 160) (f : Frame)  : ProgramResult :=
  match accounts with
  | user::userToken::mint::bridgeState::bridgeTx::tokenProgram::_system::_ => do
    requireSigner user
    require (amount≠0#64) .invalidArgument
    let st ← loadState fm f bridgeState.key
    let f ← e.invokeSpl ⟨e.programId,accounts⟩ tokenProgram.key burnIndex userToken.key mint.key
      user.key amount f
    let st := st.redeemed amount
    recordOutbound e fm accounts user.key bridgeState.key bridgeTx.key st
      (outbound st.nonce mint.key amount user.key recipientEthAddress) f
  | _ => notEnoughKeys

def processInstruction : Instruction → Frame → ProgramResult
  | .initializeBridge ethereumContractAddress guardians guardianThreshold =>
      processInitializeBridge e fm accounts ethereumContractAddress guardians guardianThreshold
  | .registerToken originalChain originalAddress name symbol decimals =>
      processRegisterToken e fm accounts originalChain originalAddress name symbol decimals
  | .lockAndMint amount recipientEthAddress =>
      processLockAndMint e fm accounts amount recipientEthAddress
  | .submitVaa nonce amount senderEthAddress recipient tokenOriginalAddress =>
      processSubmitVaa fm accounts nonce amount senderEthAddress recipient tokenOriginalAddress
  | .completeTransfer nonce => processCompleteTransfer e fm accounts nonce
  | .redeem amount recipientEthAddress => processRedeem e fm accounts amount recipientEthAddress

end Handlers

def program (e : Deployment) (fm : Formats) : Program Instruction :=
  ⟨e.programId,fun _ accounts => processInstruction e fm accounts⟩

end PrismChain.EthereumBridge
