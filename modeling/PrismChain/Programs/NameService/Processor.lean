import PrismChain.Framework.Storage

namespace PrismChain.NameService

open FixedWidth

def nameSeed : List Byte := ascii "name".toList
def reverseSeed : List Byte := ascii "reverse".toList
def subdomainSeed : List Byte := ascii "subdomain".toList
def registrySeed : List Byte := ascii "ns_registry".toList

def maxNameLen : Nat := 64
def minNameLen : Nat := 1
def maxSubdomainLen : Nat := 32
def maxRecords : Nat := 16
def maxRecordValueLen : Nat := 256
def registrationPeriodSecs : I64 := 31536000#64
def gracePeriodSecs : I64 := 2592000#64

inductive NameServiceError where
  | nameAlreadyRegistered
  | nameExpired
  | nameNotExpired
  | notOwner
  | nameTooLong
  | nameTooShort
  | invalidNameChars
  | invalidHyphenPlacement
  | tooManyRecords
  | recordValueTooLong
  | subdomainTooLong
  | invalidParentName
  | insufficientFee
  | alreadyInitialized
  | invalidAuthority
  | overflow
  | invalidAccountData
  | recordNotFound
  | reverseRecordExists
  | nameNotFound

def err (e : NameServiceError) : ProgramError := .custom (BitVec.ofNat 32 e.ctorIdx)

inductive RecordKey where
  | wallet | ipfs | arweave | twitter | discord | telegram | github | email | url |
      avatar | btc | eth
  | custom (key : Vec Byte)
  deriving DecidableEq

structure NameRecord where
  key : RecordKey
  value : Vec Byte
  deriving DecidableEq

structure NameRegistry where
  isInitialized : Bool
  authority : Pubkey
  treasury : Pubkey
  totalNames : U64
  bump : U8
  deriving DecidableEq

structure Name where
  isInitialized : Bool
  name : Vec Byte
  nameHash : BitVec 256
  owner : Pubkey
  expiresAt : I64
  registeredAt : I64
  records : Vec NameRecord
  hasReverse : Bool
  bump : U8
  deriving DecidableEq

structure Subdomain where
  isInitialized : Bool
  label : Vec Byte
  parentNameHash : BitVec 256
  owner : Pubkey
  records : Vec NameRecord
  bump : U8
  deriving DecidableEq

structure ReverseLookup where
  isInitialized : Bool
  address : Pubkey
  nameHash : BitVec 256
  bump : U8
  deriving DecidableEq

/-- Only the last kind of key carries something. -/
@[reducible] def RecordKey.Payload : Fin 13 → Type
  | 12 => Vec Byte
  | _ => Unit

def RecordKey.payloadCodec : (i : Fin 13) → Codec (Payload i)
  | 12 => Codec.u8.vec
  | 0 | 1 | 2 | 3 | 4 | 5 | 6 | 7 | 8 | 9 | 10 | 11 => Codec.unit

def keyCodec : Codec RecordKey :=
  (Codec.sigma (by decide) RecordKey.payloadCodec).record (fun x => match x with
      | ⟨0,_⟩ => .wallet | ⟨1,_⟩ => .ipfs | ⟨2,_⟩ => .arweave | ⟨3,_⟩ => .twitter
      | ⟨4,_⟩ => .discord | ⟨5,_⟩ => .telegram | ⟨6,_⟩ => .github | ⟨7,_⟩ => .email
      | ⟨8,_⟩ => .url | ⟨9,_⟩ => .avatar | ⟨10,_⟩ => .btc | ⟨11,_⟩ => .eth
      | ⟨12,key⟩ => .custom key)
    (fun k => match k with
      | .wallet => ⟨0,()⟩ | .ipfs => ⟨1,()⟩ | .arweave => ⟨2,()⟩ | .twitter => ⟨3,()⟩
      | .discord => ⟨4,()⟩ | .telegram => ⟨5,()⟩ | .github => ⟨6,()⟩ | .email => ⟨7,()⟩
      | .url => ⟨8,()⟩ | .avatar => ⟨9,()⟩ | .btc => ⟨10,()⟩ | .eth => ⟨11,()⟩
      | .custom key => ⟨12,key⟩)
    (by intro k; cases k <;> rfl)
    (by
      rintro ⟨i,x⟩
      match i,x with
      | 0,_ | 1,_ | 2,_ | 3,_ | 4,_ | 5,_ | 6,_ | 7,_ | 8,_ | 9,_ | 10,_ | 11,_ | 12,_ => rfl)

section Codecs

open Codec

def recordCodec : Codec NameRecord :=
  (keyCodec.pair (vec u8)).record (fun (k,v) => ⟨k,v⟩) (fun r => (r.key,r.value))

def registryCodec : Codec NameRegistry :=
  (bool.pair (pubkeyCodec.pair (pubkeyCodec.pair (u64.pair u8)))).record
    (fun (i,a,t,n,b) => ⟨i,a,t,n,b⟩)
    (fun r => (r.isInitialized,r.authority,r.treasury,r.totalNames,r.bump))

def nameCodec : Codec Name :=
  (bool.pair ((vec u8).pair ((uint 32).pair (pubkeyCodec.pair (i64.pair (i64.pair
    ((vec recordCodec).pair (bool.pair u8)))))))).record
    (fun (i,n,h,o,e,t,r,v,b) => ⟨i,n,h,o,e,t,r,v,b⟩)
    (fun n => (n.isInitialized,n.name,n.nameHash,n.owner,n.expiresAt,n.registeredAt,n.records,
      n.hasReverse,n.bump))

def subdomainCodec : Codec Subdomain :=
  (bool.pair ((vec u8).pair ((uint 32).pair (pubkeyCodec.pair ((vec recordCodec).pair u8))))).record
    (fun (i,l,h,o,r,b) => ⟨i,l,h,o,r,b⟩)
    (fun s => (s.isInitialized,s.label,s.parentNameHash,s.owner,s.records,s.bump))

def reverseCodec : Codec ReverseLookup :=
  (bool.pair (pubkeyCodec.pair ((uint 32).pair u8))).record (fun (i,a,h,b) => ⟨i,a,h,b⟩)
    (fun r => (r.isInitialized,r.address,r.nameHash,r.bump))

end Codecs

structure Formats where
  registry : Storage NameRegistry
  name : Storage Name
  subdomain : Storage Subdomain
  reverse : Storage ReverseLookup

def Formats.borsh : Formats :=
  ⟨.inPlace registryCodec,.inPlace nameCodec,.inPlace subdomainCodec,.inPlace reverseCodec⟩

inductive Instruction where
  | initializeRegistry
  | registerName (name : Vec Byte)
  | renewName
  | transferName (newOwner : Pubkey)
  | setRecord (key : RecordKey) (value : Vec Byte)
  | deleteRecord (key : RecordKey)
  | createSubdomain (label : Vec Byte) (subdomainOwner : Pubkey)
  | deleteSubdomain
  | setReverseLookup
  | removeReverseLookup
  | claimExpiredName
  deriving DecidableEq

def isNameChar (c : Byte) : Bool :=
  (97≤c.toNat && c.toNat≤122) || (48≤c.toNat && c.toNat≤57) || c.toNat==45

def validateName (name : List Byte) : Except ProgramError Unit := do
  require (name.length≤ maxNameLen) (err .nameTooLong)
  require (minNameLen≤name.length) (err .nameTooShort)
  require (name.all isNameChar=true) (err .invalidNameChars)
  require (name.head?≠some 45#8 ∧ name.getLast?≠some 45#8) (err .invalidHyphenPlacement)

def toVec {α : Type} (l : List α) : Except ProgramError (Vec α) :=
  if h : l.length<2^32 then .ok ⟨l,h⟩ else .error .invalidAccountData

def recordsWith (records : List NameRecord) (key : RecordKey) (value : Vec Byte) :
    Except ProgramError (List NameRecord) :=
  match records.findIdx? fun r => decide (r.key=key) with
  | some i => .ok (records.modify i fun r => {r with value := value})
  | none =>
    if records.length< maxRecords then .ok (records++[⟨key,value⟩]) else
      .error (err .tooManyRecords)

def Name.deadline (n : Name) : Except ProgramError I64 :=
  okOr (checkedAddSigned n.expiresAt gracePeriodSecs) (err .overflow)

section Handlers

variable (h : Host) (hash : List Byte → BitVec 256) (fm : Formats) (clock : Clock)
  (accounts : List AccountInfo)

def namePda (nameHash : BitVec 256) : Pubkey×U8 :=
  h.findProgramAddress [nameSeed,leBytes 32 nameHash.toNat] h.programId

def registryPda : Pubkey×U8 := h.findProgramAddress [registrySeed] h.programId

def reversePda (owner : Pubkey) : Pubkey×U8 :=
  h.findProgramAddress [reverseSeed,owner.bytes] h.programId

def subdomainPda (label : List Byte) (nameHash : BitVec 256) : Pubkey×U8 :=
  h.findProgramAddress [subdomainSeed,label,leBytes 32 nameHash.toNat] h.programId

def load {α : Type} (s : Storage α) (f : Frame) (k : Pubkey) : Except ProgramError α :=
  okOr (s.load (f.view k).data) (err .invalidAccountData)

def loadOwned (f : Frame) (k owner : Pubkey) : Except ProgramError Name := do
  let n ← load fm.name f k
  require (n.owner=owner) (err .notOwner)
  pure n

def processInitializeRegistry (f : Frame) : ProgramResult :=
  match accounts with
  | registryInfo::authority::treasury::_system::_rent::_ => do
    requireSigner authority
    require (registryInfo.key=(registryPda h).1) .invalidSeeds
    require ((fm.registry.load (f.view registryInfo.key).data).all fun r => !r.isInitialized)
      (err .alreadyInitialized)
    f.save fm.registry ⟨true,authority.key,treasury.key,0#64,(registryPda h).2⟩ registryInfo.key
  | _ => notEnoughKeys

/-- Data that do not decode count as a name that is free. -/
def checkAvailable (data : List Byte) : Except ProgramError Unit :=
  match fm.name.load data with
  | none => .ok ()
  | some n =>
    if n.isInitialized then do
      let deadline ← n.deadline
      require (deadline.toInt≤clock.unixTimestamp.toInt) (err .nameAlreadyRegistered)
    else .ok ()

def processRegisterName (name : Vec Byte) (f : Frame) : ProgramResult :=
  match accounts with
  | registryInfo::nameInfo::registrant::_treasury::clockSysvar::_system::_rent::_ => do
    requireSigner registrant
    validateName name.val
    h.requireClock clockSysvar
    let pda := namePda h (hash name.val)
    require (nameInfo.key=pda.1) .invalidSeeds
    checkAvailable fm clock (f.view nameInfo.key).data
    let expiresAt ← okOr (checkedAddSigned clock.unixTimestamp registrationPeriodSecs)
      (err .overflow)
    let registry ← load fm.registry f registryInfo.key
    let total ← okOr (checkedAdd registry.totalNames 1#64) (err .overflow)
    let f ← f.save fm.registry {registry with totalNames := total} registryInfo.key
    f.save fm.name ⟨true,name,hash name.val,registrant.key,expiresAt,clock.unixTimestamp,
      ⟨[],by decide⟩,false,pda.2⟩ nameInfo.key
  | _ => notEnoughKeys

def processRenewName (f : Frame) : ProgramResult :=
  match accounts with
  | nameInfo::owner::_treasury::clockSysvar::_ => do
    requireSigner owner
    let n ← load fm.name f nameInfo.key
    require (n.isInitialized=true) (err .nameNotFound)
    require (n.owner=owner.key) (err .notOwner)
    h.requireClock clockSysvar
    let deadline ← n.deadline
    require (clock.unixTimestamp.toInt≤deadline.toInt) (err .nameExpired)
    let base :=
      if n.expiresAt.toInt<clock.unixTimestamp.toInt then clock.unixTimestamp else n.expiresAt
    let expiresAt ← okOr (checkedAddSigned base registrationPeriodSecs) (err .overflow)
    f.save fm.name {n with expiresAt := expiresAt} nameInfo.key
  | _ => notEnoughKeys

/-- A transfer asks neither whether the name is in use nor whether it has expired. -/
def processTransferName (newOwner : Pubkey) (f : Frame) : ProgramResult :=
  match accounts with
  | nameInfo::owner::_newOwner::_ => do
    requireSigner owner
    let n ← loadOwned fm f nameInfo.key owner.key
    f.save fm.name {n with owner := newOwner, hasReverse := false} nameInfo.key
  | _ => notEnoughKeys

def processSetRecord (key : RecordKey) (value : Vec Byte) (f : Frame) : ProgramResult :=
  match accounts with
  | nameInfo::owner::clockSysvar::_ => do
    requireSigner owner
    require (value.val.length≤ maxRecordValueLen) (err .recordValueTooLong)
    h.requireClock clockSysvar
    let n ← loadOwned fm f nameInfo.key owner.key
    require (clock.unixTimestamp.toInt≤n.expiresAt.toInt) (err .nameExpired)
    let l ← recordsWith n.records.val key value
    let records ← toVec l
    f.save fm.name {n with records := records} nameInfo.key
  | _ => notEnoughKeys

def processDeleteRecord (key : RecordKey) (f : Frame) : ProgramResult :=
  match accounts with
  | nameInfo::owner::_ => do
    requireSigner owner
    let n ← loadOwned fm f nameInfo.key owner.key
    let pos ← okOr (n.records.val.findIdx? fun r => decide (r.key=key)) (err .recordNotFound)
    let records ← toVec (n.records.val.eraseIdx pos)
    f.save fm.name {n with records := records} nameInfo.key
  | _ => notEnoughKeys

def processCreateSubdomain (label : Vec Byte) (subdomainOwner : Pubkey) (f : Frame) :
    ProgramResult :=
  match accounts with
  | parentInfo::subdomainInfo::owner::clockSysvar::_system::_rent::_ => do
    requireSigner owner
    require (label.val.length≤ maxSubdomainLen) (err .subdomainTooLong)
    require (label.val.all isNameChar=true) (err .invalidNameChars)
    let parent ← load fm.name f parentInfo.key
    require (parent.isInitialized=true) (err .invalidParentName)
    require (parent.owner=owner.key) (err .notOwner)
    h.requireClock clockSysvar
    require (clock.unixTimestamp.toInt≤parent.expiresAt.toInt) (err .invalidParentName)
    let pda := subdomainPda h label.val parent.nameHash
    require (subdomainInfo.key=pda.1) .invalidSeeds
    f.save fm.subdomain
      ⟨true,label,parent.nameHash,subdomainOwner,⟨[],by decide⟩,pda.2⟩ subdomainInfo.key
  | _ => notEnoughKeys

/-- Nobody asks whether the subdomain belongs to the parent. -/
def processDeleteSubdomain (f : Frame) : ProgramResult :=
  match accounts with
  | parentInfo::subdomainInfo::owner::_ => do
    requireSigner owner
    let parent ← load fm.name f parentInfo.key
    let s ← load fm.subdomain f subdomainInfo.key
    require (parent.owner=owner.key ∨ s.owner=owner.key) (err .notOwner)
    f.save fm.subdomain {s with isInitialized := false, records := ⟨[],by decide⟩} subdomainInfo.key
  | _ => notEnoughKeys

def processSetReverseLookup (f : Frame) : ProgramResult :=
  match accounts with
  | nameInfo::reverseInfo::owner::_system::_rent::_ => do
    requireSigner owner
    let n ← loadOwned fm f nameInfo.key owner.key
    let pda := reversePda h owner.key
    require (reverseInfo.key=pda.1) .invalidSeeds
    let f ← f.save fm.reverse ⟨true,owner.key,n.nameHash,pda.2⟩ reverseInfo.key
    f.save fm.name {n with hasReverse := true} nameInfo.key
  | _ => notEnoughKeys

def processRemoveReverseLookup (f : Frame) : ProgramResult :=
  match accounts with
  | reverseInfo::owner::_ => do
    requireSigner owner
    let r ← load fm.reverse f reverseInfo.key
    require (r.address=owner.key) (err .notOwner)
    f.save fm.reverse {r with isInitialized := false} reverseInfo.key
  | _ => notEnoughKeys

def processClaimExpiredName (f : Frame) : ProgramResult :=
  match accounts with
  | nameInfo::_registry::claimant::_treasury::clockSysvar::_ => do
    requireSigner claimant
    h.requireClock clockSysvar
    let n ← load fm.name f nameInfo.key
    require (n.isInitialized=true) (err .nameNotFound)
    let deadline ← n.deadline
    require (deadline.toInt≤clock.unixTimestamp.toInt) (err .nameNotExpired)
    let expiresAt ← okOr (checkedAddSigned clock.unixTimestamp registrationPeriodSecs)
      (err .overflow)
    f.save fm.name {n with
      owner := claimant.key
      expiresAt := expiresAt
      registeredAt := clock.unixTimestamp
      records := ⟨[],by decide⟩
      hasReverse := false} nameInfo.key
  | _ => notEnoughKeys

def processInstruction : Instruction → Frame → ProgramResult
  | .initializeRegistry => processInitializeRegistry h fm accounts
  | .registerName name => processRegisterName h hash fm clock accounts name
  | .renewName => processRenewName h fm clock accounts
  | .transferName newOwner => processTransferName fm accounts newOwner
  | .setRecord key value => processSetRecord h fm clock accounts key value
  | .deleteRecord key => processDeleteRecord fm accounts key
  | .createSubdomain label owner => processCreateSubdomain h fm clock accounts label owner
  | .deleteSubdomain => processDeleteSubdomain fm accounts
  | .setReverseLookup => processSetReverseLookup h fm accounts
  | .removeReverseLookup => processRemoveReverseLookup fm accounts
  | .claimExpiredName => processClaimExpiredName h fm clock accounts

end Handlers

def program (h : Host) (hash : List Byte → BitVec 256) (fm : Formats) : Program Instruction :=
  ⟨h.programId,processInstruction h hash fm⟩

end PrismChain.NameService
