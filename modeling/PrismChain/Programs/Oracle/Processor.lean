import PrismChain.Framework.Storage
import PrismChain.Programs.Oracle.Feeds

namespace PrismChain.Oracle

open FixedWidth

def maxOracles : Nat := 16
def maxStalenessSeconds : I64 := 60#64
def defaultStaleness : I64 := 30#64
def minSubmissions : U32 := 3#32
def maxHistory : Nat := 32
def priceDecimals : U8 := 8#8
def feedSeed : List Byte := ascii ['p','r','i','c','e','_','f','e','e','d']

def feedSpace : Nat := 2048+maxOracles*32+maxOracles*128+maxHistory*64

inductive OracleError where
  | alreadyInitialized
  | notInitialized
  | unauthorizedOracle
  | staleData
  | insufficientSubmissions
  | invalidPrice
  | invalidConfidence
  | maxOraclesReached
  | oracleAlreadyRegistered
  | unauthorized
  | overflow
  | invalidPDA
  | invalidAssetClass
  deriving DecidableEq

def err (e : OracleError) : ProgramError := .custom (BitVec.ofNat 32 e.ctorIdx)

inductive Instruction where
  | initializeFeed (symbol : BitVec 256) (assetClass : AssetClass) (maxStaleness : I64)
      (minSubmissions : U32)
  | addOracle (oracle : Pubkey)
  | removeOracle (oracle : Pubkey)
  | submitPrice (price : I128) (confidence : U64) (timestamp : I64)
  | forceAggregate
  | readPrice
  deriving DecidableEq

/-- The middle of the sorted values, or the average of the two that are in the middle; the sum of
the two wraps around. -/
def median (values : List I128) : Option I128 :=
  let sorted := values.insertionSort fun a b => a.toInt≤b.toInt
  let mid := sorted.length/2
  if sorted.length%2=0 then
    sorted[mid-1]?.bind fun lower => sorted[mid]?.map fun upper => (lower+upper).sdiv 2#128
  else sorted[mid]?

def largest (values : List U64) : U64 :=
  values.foldl (fun m x => if m.toNat<x.toNat then x else m) 0#64

/-- How far a price is from the median, cut to 64 bits. -/
def deviation (medianPrice price : I128) : U64 :=
  let diff := price-medianPrice
  (if diff.toInt<0 then -diff else diff).setWidth 64

def aggregateConfidence (submissions : List OracleSubmission) (medianPrice : I128) : U64 :=
  largest [largest (submissions.map OracleSubmission.confidence),
    largest (submissions.map fun s => deviation medianPrice s.price)]

def recordRound (history : Vec PriceRound) (round : PriceRound) : Option (Vec PriceRound) :=
  if maxHistory≤history.val.length then
    some ⟨history.val.set ((round.roundId.toNat-1)%maxHistory) round,
      by rw [List.length_set]; exact history.property⟩
  else PrismChain.Vec.push history round

def aggregatePrices (feed : PriceFeed) (now : I64) : Except ProgramError PriceFeed := do
  require (feed.minSubmissions.toNat≤feed.currentSubmissions.val.length)
    (err .insufficientSubmissions)
  let price ← okOr (median (feed.currentSubmissions.val.map OracleSubmission.price))
    .programFailedToComplete
  let confidence := aggregateConfidence feed.currentSubmissions.val price
  let currentRound := saturatingAdd feed.currentRound 1#64
  let history ← okOr (recordRound feed.history ⟨currentRound,price,confidence,
    BitVec.ofNat 32 feed.currentSubmissions.val.length,now⟩) .borshIoError
  pure {feed with
    currentRound := currentRound
    history := history
    latestPrice := price
    latestConfidence := confidence
    latestTimestamp := now
    currentSubmissions := ⟨[],short_nil⟩}

def submitted (s : OracleSubmission) : List OracleSubmission → List OracleSubmission
  | [] => [s]
  | x::xs => if x.oracle=s.oracle then s::xs else x::submitted s xs

def submit (v : Vec OracleSubmission) (s : OracleSubmission) : Option (Vec OracleSubmission) :=
  if h : (submitted s v.val).length<2^32 then some ⟨submitted s v.val,h⟩ else none

def retain {α : Type} (keep : α → Bool) (v : Vec α) : Vec α :=
  ⟨v.val.filter keep,(List.length_filter_le keep v.val).trans_lt v.property⟩

def newFeed (admin : Pubkey) (symbol : BitVec 256) (assetClass : AssetClass) (maxStaleness : I64)
    (minSubmissions : U32) (bump : U8) : PriceFeed where
  isInitialized := true
  admin := admin
  symbol := symbol
  assetClass := assetClass
  decimals := priceDecimals
  maxStaleness := if maxStaleness.toInt≤0 then defaultStaleness
    else if maxStaleness.toInt≤ maxStalenessSeconds.toInt then maxStaleness else maxStalenessSeconds
  minSubmissions := if minSubmissions=0#32 then Oracle.minSubmissions else minSubmissions
  currentRound := 0#64
  latestPrice := 0#128
  latestConfidence := 0#64
  latestTimestamp := 0#64
  isActive := true
  bump := bump
  oracleCount := 0#32
  oracles := ⟨[],short_nil⟩
  currentSubmissions := ⟨[],short_nil⟩
  history := ⟨[],short_nil⟩

section Handlers

variable (h : Host) (st : Storage PriceFeed) (clock : Clock) (accounts : List AccountInfo)

def loadFeed (f : Frame) (k : Pubkey) : Except ProgramError PriceFeed := do
  require ((f.view k).owner=h.programId) .incorrectProgramId
  let feed ← okOr (st.load (f.view k).data) .borshIoError
  require (feed.isInitialized=true) (err .notInitialized)
  pure feed

def loadManaged (f : Frame) (k admin : Pubkey) : Except ProgramError PriceFeed := do
  let feed ← loadFeed h st f k
  require (feed.admin=admin) (err .unauthorized)
  pure feed

def processInitializeFeed (symbol : BitVec 256) (assetClass : AssetClass) (maxStaleness : I64)
    (minSubmissions : U32) (f : Frame) : ProgramResult :=
  match accounts with
  | admin::feedAccount::_system::_ => do
    requireSigner admin
    let pda := h.findProgramAddress [feedSeed,leBytes 32 symbol.toNat] h.programId
    require (pda.1=feedAccount.key) (err .invalidPDA)
    let iv : Invocation := ⟨h.programId,accounts⟩
    let f ← iv.invoke [admin.key,feedAccount.key] (iv.createAccount admin.key feedAccount.key
      (h.minimumBalance feedSpace) feedSpace) f
    f.serialize st
      (newFeed admin.key symbol assetClass maxStaleness minSubmissions pda.2) feedAccount.key
  | _ => notEnoughKeys

def processAddOracle (oracle : Pubkey) (f : Frame) : ProgramResult :=
  match accounts with
  | admin::feedAccount::_ => do
    requireSigner admin
    let feed ← loadManaged h st f feedAccount.key admin.key
    require (feed.oracles.val.length< maxOracles) (err .maxOraclesReached)
    require (oracle∉feed.oracles.val) (err .oracleAlreadyRegistered)
    let oracles ← okOr (PrismChain.Vec.push feed.oracles oracle) .borshIoError
    f.serialize st {feed with
      oracles := oracles
      oracleCount := BitVec.ofNat 32 oracles.val.length} feedAccount.key
  | _ => notEnoughKeys

def processRemoveOracle (oracle : Pubkey) (f : Frame) : ProgramResult :=
  match accounts with
  | admin::feedAccount::_ => do
    requireSigner admin
    let feed ← loadManaged h st f feedAccount.key admin.key
    let oracles := retain (fun o => decide (o≠oracle)) feed.oracles
    require (oracles.val.length≠feed.oracles.val.length) (err .unauthorizedOracle)
    f.serialize st {feed with
      oracles := oracles
      oracleCount := BitVec.ofNat 32 oracles.val.length
      currentSubmissions := retain (fun s => decide (s.oracle≠oracle)) feed.currentSubmissions}
      feedAccount.key
  | _ => notEnoughKeys

def aggregateIfEnough (feed : PriceFeed) (now : I64) : Except ProgramError PriceFeed :=
  if feed.minSubmissions.toNat≤feed.currentSubmissions.val.length then aggregatePrices feed now
  else .ok feed

def processSubmitPrice (price : I128) (confidence : U64) (timestamp : I64) (f : Frame) :
    ProgramResult :=
  match accounts with
  | oracle::feedAccount::_ => do
    requireSigner oracle
    let feed ← loadFeed h st f feedAccount.key
    require (feed.isActive=true) (err .notInitialized)
    require (oracle.key∈feed.oracles.val) (err .unauthorizedOracle)
    require (0<price.toInt) (err .invalidPrice)
    require ((saturatingSubSigned clock.unixTimestamp timestamp).toInt≤feed.maxStaleness.toInt)
      (err .staleData)
    let submissions ← okOr (submit feed.currentSubmissions
      ⟨oracle.key,price,confidence,timestamp,clock.unixTimestamp⟩) .borshIoError
    let feed ← aggregateIfEnough {feed with currentSubmissions := submissions} clock.unixTimestamp
    f.serialize st feed feedAccount.key
  | _ => notEnoughKeys

def processForceAggregate (f : Frame) : ProgramResult :=
  match accounts with
  | admin::feedAccount::_ => do
    requireSigner admin
    let feed ← loadManaged h st f feedAccount.key admin.key
    let feed ← aggregatePrices feed clock.unixTimestamp
    f.serialize st feed feedAccount.key
  | _ => notEnoughKeys

/-- The price is only logged. -/
def processReadPrice (f : Frame) : ProgramResult :=
  match accounts with
  | feedAccount::_ => do
    let _ ← loadFeed h st f feedAccount.key
    pure f
  | _ => notEnoughKeys

def processInstruction : Instruction → Frame → ProgramResult
  | .initializeFeed symbol assetClass maxStaleness minSubmissions =>
      processInitializeFeed h st accounts symbol assetClass maxStaleness minSubmissions
  | .addOracle oracle => processAddOracle h st accounts oracle
  | .removeOracle oracle => processRemoveOracle h st accounts oracle
  | .submitPrice price confidence timestamp =>
      processSubmitPrice h st clock accounts price confidence timestamp
  | .forceAggregate => processForceAggregate h st clock accounts
  | .readPrice => processReadPrice h st accounts

end Handlers

def program (h : Host) (st : Storage PriceFeed) : Program Instruction :=
  ⟨h.programId,processInstruction h st⟩

end PrismChain.Oracle
