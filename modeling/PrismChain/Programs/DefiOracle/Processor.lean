import PrismChain.Framework.Cells
import PrismChain.Programs.Oracle.Feeds

namespace PrismChain.DefiOracle

open FixedWidth Storage

def maxPublishers : Nat := 16
def maxStalenessSlots : U64 := 120#64
def feedSeed : List Byte := ascii ['p','r','i','c','e','_','f','e','e','d']
def submissionSeed : List Byte := ascii ['s','u','b','m','i','s','s','i','o','n']

def feedLen : Nat := 4+32+8+8+8+8+32+4+(32*maxPublishers)+4+1+1

def submissionLen : Nat := 32+32+8+8+8+8+1+1

abbrev AssetName := {s : String // (Codec.utf8 s).length<2^32}

structure PriceSubmission where
  publisher : Pubkey
  feed : Pubkey
  price : U64
  confidence : U64
  slot : U64
  timestamp : I64
  bump : U8
  isInitialized : Bool
  deriving DecidableEq

open Codec in
def submissionCodec : Codec PriceSubmission :=
  (pubkeyCodec.pair
    (pubkeyCodec.pair (u64.pair (u64.pair (u64.pair (i64.pair (u8.pair bool))))))).record
    (fun (k,f,p,c,s,t,b,i) => ⟨k,f,p,c,s,t,b,i⟩)
    (fun x => (x.publisher,x.feed,x.price,x.confidence,x.slot,x.timestamp,x.bump,x.isInitialized))

structure Formats where
  feed : Storage PriceFeed
  submission : Storage PriceSubmission

namespace Formats

def borsh : Formats := ⟨.inPlace feedCodec,.inPlace submissionCodec⟩

structure Decoded (fm : Formats) : Prop where
  feed : fm.feed.Exact
  submission : fm.submission.Exact
  apart : fm.feed.Apart fm.submission

def values : Formats := ⟨.whole 1#8 feedCodec,.whole 2#8 submissionCodec⟩

theorem values_decoded : values.Decoded where
  feed := whole_exact (by decide) _
  submission := whole_exact (by decide) _
  apart := whole_apart (by decide) _ _

end Formats

inductive Instruction where
  | createFeed (asset : AssetName) (publishers : Vec Pubkey)
  | updatePrice (price confidence : U64)
  | aggregatePrices
  | addPublisher (publisher : Pubkey)
  | removePublisher (publisher : Pubkey)
  deriving DecidableEq

/-- The middle of the sorted values, or the average of the two that are in the middle, halved
before they are added. -/
def computeMedian (values : List U64) : Option U64 :=
  let sorted := values.insertionSort fun a b => a.toNat≤b.toNat
  let mid := sorted.length/2
  if sorted.length%2=0 then
    sorted[mid-1]?.bind fun lower => sorted[mid]?.map fun upper =>
      lower/2#64+upper/2#64+(lower%2#64+upper%2#64)/2#64
  else sorted[mid]?

def newFeed (authority : Pubkey) (asset : AssetName) (publishers : Vec Pubkey) (bump : U8) :
    PriceFeed where
  asset := asset
  price := 0#64
  confidence := 0#64
  lastUpdateSlot := 0#64
  lastUpdateTimestamp := 0#64
  authority := authority
  publishers := publishers
  numSubmissions := 0#32
  bump := bump
  isInitialized := true

section Handlers

variable (h : Host) (fm : Formats) (clock : Clock) (accounts : List AccountInfo)

/-- Nobody asks who owns the account. -/
def loadFeed (f : Frame) (k : Pubkey) : Except ProgramError PriceFeed := do
  let feed ← okOr (fm.feed.load (f.view k).data) .borshIoError
  require (feed.isInitialized=true) .uninitializedAccount
  pure feed

def loadManaged (f : Frame) (k authority : Pubkey) : Except ProgramError PriceFeed := do
  let feed ← loadFeed fm f k
  require (feed.authority=authority) .invalidArgument
  pure feed

def submissionPda (feed publisher : Pubkey) : Pubkey×U8 :=
  h.findProgramAddress [submissionSeed,feed.bytes,publisher.bytes] h.programId

def processCreateFeed (asset : AssetName) (publishers : Vec Pubkey) (f : Frame)  : ProgramResult :=
  match accounts with
  | authority::feedInfo::_system::_ => do
    requireSigner authority
    require ((Codec.utf8 asset.val).length≤32) .invalidArgument
    require (publishers.val.length≤ maxPublishers) .invalidArgument
    let pda := h.findProgramAddress [feedSeed,Codec.utf8 asset.val] h.programId
    require (feedInfo.key=pda.1) .invalidArgument
    let iv : Invocation := ⟨h.programId,accounts⟩
    let f ← iv.invoke [authority.key,feedInfo.key] (iv.createAccount authority.key feedInfo.key
      (h.minimumBalance feedLen) feedLen) f
    f.serialize fm.feed (newFeed authority.key asset publishers pda.2) feedInfo.key
  | _ => notEnoughKeys

def openSubmission (publisher k : Pubkey) (f : Frame) : ProgramResult :=
  if (f.view k).data=[] then
    let iv : Invocation := ⟨h.programId,accounts⟩
    iv.invoke [publisher,k]
      (iv.createAccount publisher k (h.minimumBalance submissionLen) submissionLen) f
  else .ok f

def processUpdatePrice (price confidence : U64) (f : Frame) : ProgramResult :=
  match accounts with
  | publisher::feedInfo::submissionInfo::_system::_ => do
    requireSigner publisher
    require (price≠0#64) .invalidArgument
    let feed ← loadFeed fm f feedInfo.key
    require (publisher.key∈feed.publishers.val) .invalidArgument
    let pda := submissionPda h feedInfo.key publisher.key
    require (submissionInfo.key=pda.1) .invalidArgument
    let f ← openSubmission h accounts publisher.key submissionInfo.key f
    f.serialize fm.submission ⟨publisher.key,feedInfo.key,price,confidence,clock.slot,
      clock.unixTimestamp,pda.2,true⟩ submissionInfo.key
  | _ => notEnoughKeys

/-- The submission in an account, if it counts for the feed `k` now. Again nobody asks who owns the
account. -/
def countable (k : Pubkey) (feed : PriceFeed) (data : List Byte) : Option PriceSubmission :=
  if data=[] then none
  else (fm.submission.load data).filter fun s => s.isInitialized && decide (s.feed=k) &&
    decide (s.publisher∈feed.publishers.val) &&
    decide ((saturatingSub clock.slot s.slot).toNat≤ maxStalenessSlots.toNat)

def collect (k : Pubkey) (feed : PriceFeed) (f : Frame) (infos : List AccountInfo) :
    List PriceSubmission :=
  infos.filterMap fun info => countable fm clock k feed (f.view info.key).data

def processAggregatePrices (f : Frame) : ProgramResult :=
  match accounts with
  | caller::feedInfo::infos => do
    requireSigner caller
    let feed ← loadFeed fm f feedInfo.key
    let submissions := collect fm clock feedInfo.key feed f infos
    require (submissions≠[]) .invalidArgument
    let price ← okOr
      (computeMedian (submissions.map PriceSubmission.price)) .programFailedToComplete
    let confidence ← okOr (computeMedian (submissions.map PriceSubmission.confidence))
      .programFailedToComplete
    f.serialize fm.feed {feed with
      price := price
      confidence := confidence
      lastUpdateSlot := clock.slot
      lastUpdateTimestamp := clock.unixTimestamp
      numSubmissions := BitVec.ofNat 32 submissions.length} feedInfo.key
  | _ => notEnoughKeys

def processAddPublisher (publisher : Pubkey) (f : Frame) : ProgramResult :=
  match accounts with
  | authority::feedInfo::_ => do
    requireSigner authority
    let feed ← loadManaged fm f feedInfo.key authority.key
    require (feed.publishers.val.length< maxPublishers) .invalidArgument
    require (publisher∉feed.publishers.val) .invalidArgument
    let publishers ← okOr (PrismChain.Vec.push feed.publishers publisher) .borshIoError
    f.serialize fm.feed {feed with publishers := publishers} feedInfo.key
  | _ => notEnoughKeys

def processRemovePublisher (publisher : Pubkey) (f : Frame) : ProgramResult :=
  match accounts with
  | authority::feedInfo::_ => do
    requireSigner authority
    let feed ← loadManaged fm f feedInfo.key authority.key
    let publishers : Vec Pubkey := ⟨feed.publishers.val.filter fun p => decide (p≠publisher),
      (List.length_filter_le _ _).trans_lt feed.publishers.property⟩
    require (publishers.val.length≠feed.publishers.val.length) .invalidArgument
    f.serialize fm.feed {feed with publishers := publishers} feedInfo.key
  | _ => notEnoughKeys

def processInstruction : Instruction → Frame → ProgramResult
  | .createFeed asset publishers => processCreateFeed h fm accounts asset publishers
  | .updatePrice price confidence => processUpdatePrice h fm clock accounts price confidence
  | .aggregatePrices => processAggregatePrices fm clock accounts
  | .addPublisher publisher => processAddPublisher fm accounts publisher
  | .removePublisher publisher => processRemovePublisher fm accounts publisher

end Handlers

def program (h : Host) (fm : Formats) : Program Instruction :=
  ⟨h.programId,processInstruction h fm⟩

end PrismChain.DefiOracle
