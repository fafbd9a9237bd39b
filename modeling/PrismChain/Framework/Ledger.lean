import PrismChain.Framework.Borsh
import PrismChain.Framework.Outcome
import PrismChain.Math.Neighbours

namespace PrismChain

open FixedWidth Function List

/-- The 32 bytes of an address, first byte lowest. -/
abbrev Pubkey := BitVec 256

instance : LawfulBEq Pubkey := inferInstance

def Pubkey.bytes (k : Pubkey) : List Byte := leBytes 32 k.toNat

def pubkeyCodec : Codec Pubkey := Codec.uint 32

@[simp] theorem pubkey_length (k : Pubkey) :
    (pubkeyCodec.encode k).length=32 := Codec.uint_size 32 k

/-- Keys are compared byte by byte from the first on, so as numbers with that byte in front. -/
def keyRank (k : Pubkey) : Nat := leValue k.bytes.reverse

theorem keyRank_inj (h : keyRank j=keyRank k) : j=k := by
  have hbytes := leBytes_leValue j.bytes.reverse
  have hlen (k : Pubkey) : k.bytes.reverse.length=32 := by simp [Pubkey.bytes]
  unfold keyRank at h
  rw [h,hlen,← hlen k,leBytes_leValue] at hbytes
  exact pubkeyCodec.encode_inj (reverse_injective hbytes).symm

instance : IsTrans Pubkey fun j k => keyRank j≤keyRank k := ⟨fun _ _ _ => Nat.le_trans⟩

instance : Std.Total fun j k : Pubkey => keyRank j≤keyRank k := ⟨fun _ _ => Nat.le_total _ _⟩

def sortKeys (keys : List Pubkey) : List Pubkey :=
  keys.insertionSort fun j k => keyRank j≤keyRank k

theorem sortKeys_apart (keys : List Pubkey) : (sortKeys keys).IsChain (·≠·) ↔ keys.Nodup :=
  Neighbours.isChain_ne_sort (fun _ _ hjk hkj => keyRank_inj (Nat.le_antisymm hjk hkj)) keys

def systemProgram : Pubkey := 0#256

structure Account where
  lamports : U64
  data : List Byte
  owner : Pubkey
  deriving DecidableEq

theorem update_eq_some [DecidableEq κ] {f : κ → Option α} :
    update f k (some a) j=some b ↔ j=k ∧ a=b ∨ j≠k ∧ f j=some b := by
  by_cases hj : j=k <;> simp [hj]

/-- Every address has an account; an unused one is empty and belongs to the system program. -/
abbrev Bank := Pubkey → Account

structure AccountInfo where
  key : Pubkey
  isSigner : Bool
  isWritable : Bool
  deriving DecidableEq

abbrev systemInfo : AccountInfo := ⟨systemProgram,false,false⟩

structure Clock where
  slot : U64
  unixTimestamp : I64
  deriving DecidableEq

def Clock.before (c d : Clock) : Prop :=
  c.slot.toNat≤d.slot.toNat ∧ c.unixTimestamp.toInt≤d.unixTimestamp.toInt

inductive ProgramError where
  | custom (code : U32)
  | invalidArgument
  | invalidAccountData
  | incorrectProgramId
  | missingRequiredSignature
  | notEnoughAccountKeys
  | invalidSeeds
  | borshIoError
  | arithmeticOverflow
  | missingAccount
  | privilegeEscalation
  | programFailedToComplete
  | externalAccountLamportSpend
  | externalAccountDataModified
  | readonlyLamportChange
  | readonlyDataModified
  | unbalancedInstruction
  | accountDataTooSmall
  | uninitializedAccount
  | insufficientFunds
  | accountNotRentExempt
  | invalidInstructionData
  | callDepth
  | accountAlreadyInitialized
  | illegalOwner
  deriving DecidableEq

abbrev requireSigner (info : AccountInfo) : Except ProgramError Unit :=
  require (info.isSigner=true) .missingRequiredSignature

abbrev notEnoughKeys : Except ProgramError α := .error .notEnoughAccountKeys

namespace Bank

def setLamports (b : Bank) (k : Pubkey) (n : U64) : Bank :=
  Function.update b k {b k with lamports := n}

def setData (b : Bank) (k : Pubkey) (d : List Byte) : Bank :=
  Function.update b k {b k with data := d}

@[simp] theorem setLamports_data (b : Bank) (k j : Pubkey) (n : U64) :
    (b.setLamports k n j).data=(b j).data := by
  by_cases h : j=k <;> simp [setLamports,h]

@[simp] theorem setLamports_owner (b : Bank) (k j : Pubkey) (n : U64) :
    (b.setLamports k n j).owner=(b j).owner := by
  by_cases h : j=k <;> simp [setLamports,h]

@[simp] theorem setData_lamports (b : Bank) (k j : Pubkey) (d : List Byte) :
    (b.setData k d j).lamports=(b j).lamports := by
  by_cases h : j=k <;> simp [setData,h]

@[simp] theorem setData_owner (b : Bank) (k j : Pubkey) (d : List Byte) :
    (b.setData k d j).owner=(b j).owner := by
  by_cases h : j=k <;> simp [setData,h]

theorem setLamports_lamports (b : Bank) (k j : Pubkey) (n : U64) :
    (b.setLamports k n j).lamports=if j=k then n else (b j).lamports := by
  by_cases h : j=k <;> simp [setLamports,h]

theorem setData_data (b : Bank) (k j : Pubkey) (d : List Byte) :
    (b.setData k d j).data=if j=k then d else (b j).data := by
  by_cases h : j=k <;> simp [setData,h]

@[simp] theorem setData_same (b : Bank) (k : Pubkey) (d : List Byte) :
    (b.setData k d k).data=d := by simp [setData_data]

theorem setData_other (b : Bank) (d : List Byte) (h : j≠k) :
    (b.setData k d j).data=(b j).data := by simp [setData_data,h]

end Bank

/-- `n` lamports went from `src` to `dst` and no other balance changed. -/
def Moved (b b' : Bank) (src dst : Pubkey) (n : Nat) : Prop :=
  ∀ k,(b' k).lamports.toNat+(if k=src then n else 0)=(b k).lamports.toNat+(if k=dst then n else 0)

def SameState (b b' : Bank) : Prop :=
  ∀ k,(b' k).data=(b k).data ∧ (b' k).owner=(b k).owner

theorem SameState.refl (b : Bank) : SameState b b := fun _ => ⟨rfl,rfl⟩

theorem SameState.trans (h : SameState b1 b2) (h' : SameState b2 b3) : SameState b1 b3 :=
  fun k => ⟨(h' k).1.trans (h k).1,(h' k).2.trans (h k).2⟩

/-- What a program asks of the runtime it is deployed on. Derivation of addresses from seeds
and the rent schedule are the runtime's. -/
structure Host where
  programId : Pubkey
  findProgramAddress : List (List Byte) → Pubkey → Pubkey×U8
  minimumBalance : Nat → U64
  clockSysvar : Pubkey

abbrev Host.requireClock (h : Host) (info : AccountInfo) : Except ProgramError Unit :=
  require (info.key=h.clockSysvar) .invalidArgument

def ascii (s : List Char) : List Byte := s.map fun c => BitVec.ofNat 8 c.toNat

/-- The running instruction: the bank as the runtime last checked it and as the program
has written it since. -/
structure Frame where
  synced : Bank
  view : Bank

/-- What a handler leaves, or an error. -/
abbrev ProgramResult := Except ProgramError Frame

/-- Borsh serialization into the data of the account `k`. -/
def Frame.store {α : Type} (f : Frame) (c : Codec α) (a : α) (k : Pubkey)  : ProgramResult := do
  let d ← okOr (c.writeTo a (f.view k).data) .borshIoError
  pure {f with view := f.view.setData k d}

theorem Frame.store_ne_error {f : Frame} {e : ProgramError} (h : .borshIoError≠e) :
    f.store c a k≠.error e :=
  bind_ne_error (okOr_ne_error h) fun _ => nofun

theorem Frame.store_eq_ok {α : Type} {c : Codec α} {n : Nat} (hc : c.HasSize n) {a : α}
    {k : Pubkey} {f g : Frame} (hk : (f.view k).data.length=n) :
    f.store c a k=.ok g ↔ g={f with view := f.view.setData k (c.encode a)} := by
  simp only [store,Codec.writeTo_of_size hc hk,steps_ok,Option.some.injEq,exists_eq_left']
  exact eq_comm

theorem Frame.store_spec {α : Type} {c : Codec α} {a : α} {k : Pubkey} {f g : Frame}
    (h : f.store c a k=.ok g) : (c.encode a).length≤(f.view k).data.length ∧
      g=⟨f.synced,f.view.setData k (c.encode a++(f.view k).data.drop (c.encode a).length)⟩ := by
  simp only [store,steps_ok,Codec.writeTo] at h
  obtain ⟨d,hd,rfl⟩ := h
  split at hd
  case isTrue hfits => exact ⟨hfits,by rw [← Option.some.inj hd]⟩
  case isFalse => cases hd

theorem Frame.store_front {α : Type} {c : Codec α} {a : α} {k : Pubkey} {f g : Frame}
    (h : f.store c a k=.ok g) : ∃ rest,g={f with view := f.view.setData k (c.encode a++rest)} :=
  ⟨_,(store_spec h).2⟩

/-- What the runtime knows about the instruction it runs. -/
structure Invocation where
  programId : Pubkey
  accounts : List AccountInfo

namespace Invocation

def signed (iv : Invocation) (k : Pubkey) : Bool :=
  iv.accounts.any fun a => a.key==k && a.isSigner

def writable (iv : Invocation) (k : Pubkey) : Bool :=
  iv.accounts.any fun a => a.key==k && a.isWritable

def checkAccount (iv : Invocation) (f : Frame) (k : Pubkey) : Except ProgramError Unit := do
  require ((f.synced k).owner=iv.programId ∨
    (f.synced k).lamports.toNat≤(f.view k).lamports.toNat) .externalAccountLamportSpend
  require ((f.synced k).lamports=(f.view k).lamports ∨ iv.writable k) .readonlyLamportChange
  require ((f.synced k).data=(f.view k).data ∨ iv.writable k) .readonlyDataModified
  require ((f.synced k).data=(f.view k).data ∨ (f.synced k).owner=iv.programId)
    .externalAccountDataModified

def lamportsIn (b : Bank) (keys : List Pubkey) : Nat :=
  (keys.dedup.map fun k => (b k).lamports.toNat).sum

def sync (iv : Invocation) (keys : List Pubkey) (f : Frame) : Except ProgramError Unit := do
  forM keys fun k => iv.checkAccount f k
  require (lamportsIn f.synced keys=lamportsIn f.view keys) .unbalancedInstruction

/-- A cross-program call on the accounts `keys`: what the caller wrote to them is checked
first, and afterwards both views hold what the callee left there. -/
def invoke (iv : Invocation) (keys : List Pubkey) (callee : Bank → Except ProgramError Bank)
    (f : Frame) : ProgramResult := do
  iv.sync keys f
  let b ← callee f.view
  pure ⟨fun k => if k∈keys then b k else f.synced k,b⟩

/-- `transfer` of the system program: it owns, and so may debit, accounts without data only. -/
def transfer (iv : Invocation) (src dst : Pubkey) (amount : U64) (b : Bank) :
    Except ProgramError Bank := do
  require (iv.accounts.any fun a => a.key==systemProgram) .missingAccount
  require (iv.signed src) .missingRequiredSignature
  require (iv.writable src ∧ iv.writable dst) .privilegeEscalation
  require ((b src).data=[]) .invalidArgument
  require (amount.toNat≤(b src).lamports.toNat) (.custom 1)
  require ((b src).owner=systemProgram ∨ amount=0#64) .externalAccountLamportSpend
  let debited := b.setLamports src ((b src).lamports-amount)
  let credit ← okOr (checkedAdd (debited dst).lamports amount) .arithmeticOverflow
  pure (debited.setLamports dst credit)

/-- `create_account` of the system program; the address created signs through its seeds. The
runtime's limit of 10240 new bytes for an account created in a call is left out. -/
def createAccount (iv : Invocation) (payer new : Pubkey) (lamports : U64) (space : Nat)
    (b : Bank) : Except ProgramError Bank := do
  require ((b new).lamports=0#64) (.custom 0)
  require ((b new).data=[] ∧ (b new).owner=systemProgram) (.custom 0)
  iv.transfer payer new lamports
    (Function.update b new ⟨0#64,List.replicate space 0#8,iv.programId⟩)

variable {iv : Invocation} {keys : List Pubkey} {amount : U64}

theorem sync_eq_ok : iv.sync keys f=.ok u ↔
      (∀ k∈keys,iv.checkAccount f k=.ok ()) ∧ lamportsIn f.synced keys=lamportsIn f.view keys := by
  simp [sync,steps_ok,forM_eq_ok]

theorem checkAccount_eq_ok : iv.checkAccount f k=.ok u ↔ ((f.synced k).owner=iv.programId ∨
        (f.synced k).lamports.toNat≤(f.view k).lamports.toNat) ∧
      ((f.synced k).lamports=(f.view k).lamports ∨ iv.writable k) ∧
      ((f.synced k).data=(f.view k).data ∨ iv.writable k) ∧
      ((f.synced k).data=(f.view k).data ∨ (f.synced k).owner=iv.programId) := by
  simp [checkAccount,steps_ok]

theorem invoke_eq_ok :
    iv.invoke keys callee f=.ok g ↔ iv.sync keys f=.ok () ∧ ∃ c,callee f.view=.ok c ∧
        g=⟨fun k => if k∈keys then c k else f.synced k,c⟩ := by
  simp only [invoke,steps_ok]
  constructor
  · intro ⟨_,hs,c,hc,hg⟩
    exact ⟨hs,c,hc,hg.symm⟩
  · intro ⟨hs,c,hc,hg⟩
    exact ⟨(),hs,c,hc,hg.symm⟩

theorem lamportsIn_moved (hm : Moved b b' src dst n) (hsrc : src∈keys) (hdst : dst∈keys) :
    lamportsIn b' keys=lamportsIn b keys := by
  have hfinset (c : Bank) : lamportsIn c keys=∑ k∈keys.toFinset,(c k).lamports.toNat := by
    rw [lamportsIn,← sum_toFinset _ keys.nodup_dedup,toFinset.ext fun _ => mem_dedup]
  have hone {x : Pubkey} (hx : x∈keys) : ∑ k∈keys.toFinset,(if k=x then n else 0)=n := by
    rw [Finset.sum_ite_eq',if_pos (mem_toFinset.mpr hx)]
  have hsum : ∑ k∈keys.toFinset,((b' k).lamports.toNat+(if k=src then n else 0))=
      ∑ k∈keys.toFinset,((b k).lamports.toNat+(if k=dst then n else 0)) :=
    Finset.sum_congr rfl fun k _ => hm k
  rw [Finset.sum_add_distrib,Finset.sum_add_distrib,hone hsrc,hone hdst] at hsum
  rw [hfinset,hfinset]
  omega

/-- A call made before the program has written anything leaves both views equal, provided
the callee stays within the accounts it was given. -/
theorem invoke_clean (h : iv.invoke keys callee ⟨b,b⟩=.ok g)
    (hkeys : ∀ {c},callee b=.ok c → ∀ k,k∉keys → c k=b k) : ∃ c,callee b=.ok c ∧ g=⟨c,c⟩ := by
  obtain ⟨-,c,hc,hg⟩ := invoke_eq_ok.mp h
  refine ⟨c,hc,?_⟩
  have hfun : (fun k => if k∈keys then c k else b k)=c := by
    funext k
    by_cases hk : k∈keys
    · rw [if_pos hk]
    · rw [if_neg hk,hkeys hc k hk]
  rw [hg,hfun]

theorem moved_of_debit_credit (hle : amount.toNat≤(b src).lamports.toNat)
    (hcredit : checkedAdd ((b.setLamports src ((b src).lamports-amount)) dst).lamports amount=
    some credit) :
    Moved b ((b.setLamports src ((b src).lamports-amount)).setLamports dst credit)
      src dst amount.toNat := by
  intro k
  have hsub : ((b src).lamports-amount).toNat=(b src).lamports.toNat-amount.toNat :=
    BitVec.toNat_sub_of_le (BitVec.le_def.mpr hle)
  have hadd := checkedAdd_eq_some.mp hcredit
  rw [Bank.setLamports_lamports] at hadd
  rw [Bank.setLamports_lamports,Bank.setLamports_lamports]
  by_cases hd : k=dst
  · subst hd
    rw [if_pos rfl,if_pos rfl,hadd]
    by_cases hs : k=src
    · subst hs
      simp only [if_true,hsub]
      omega
    · simp only [hs,if_false]
      omega
  · rw [if_neg hd,if_neg hd]
    by_cases hs : k=src
    · subst hs
      simp only [if_true,hsub]
      omega
    · simp only [hs,if_false]

theorem transfer_spec (h : iv.transfer src dst amount b=.ok b') :
    (b src).data=[] ∧ ((b src).owner=systemProgram ∨ amount=0#64) ∧
      amount.toNat≤(b src).lamports.toNat ∧ SameState b b' ∧
      Moved b b' src dst amount.toNat ∧ ∀ k,k≠src → k≠dst → b' k=b k := by
  simp only [transfer,steps_ok] at h
  obtain ⟨-,-,-,-,-,-,-,hdata,-,hle,-,howner,_,hcredit,rfl⟩ := h
  refine ⟨hdata,howner,hle,fun k => by simp,moved_of_debit_credit hle hcredit,?_⟩
  intro k hs hd
  simp [Bank.setLamports,hs,hd]

/-- A created account was unused, is filled with zeros and is paid for by an account of the
system program. -/
theorem createAccount_spec (h : iv.createAccount payer new amount space b=.ok b') :
    (b new).lamports=0#64 ∧ (b new).data=[] ∧ (b new).owner=systemProgram ∧
      (b payer).data=[] ∧ ((b payer).owner=systemProgram ∨ amount=0#64) ∧
      amount.toNat≤(b payer).lamports.toNat ∧
      (b' new).data=replicate space 0#8 ∧ (b' new).owner=iv.programId ∧
      (∀ k,k≠new → (b' k).data=(b k).data ∧ (b' k).owner=(b k).owner) ∧
      Moved b b' payer new amount.toNat ∧ ∀ k,k≠payer → k≠new → b' k=b k := by
  simp only [createAccount,steps_ok] at h
  obtain ⟨-,hzero,-,⟨hdata,howner⟩,h⟩ := h
  obtain ⟨pdata,powner,hle,hsame,hmoved,hother⟩ := transfer_spec h
  have hpayer : (b payer).data=[] ∧ ((b payer).owner=systemProgram ∨ amount=0#64) ∧
      amount.toNat≤(b payer).lamports.toNat := by
    by_cases hp : payer=new
    · subst hp
      rw [update_self] at hle
      rw [hzero]
      exact ⟨hdata,.inl howner,hle⟩
    · rw [update_of_ne hp] at pdata powner hle
      exact ⟨pdata,powner,hle⟩
  refine ⟨hzero,hdata,howner,hpayer.1,hpayer.2.1,hpayer.2.2,?_,?_,?_,?_,?_⟩
  · rw [(hsame new).1,update_self]
  · rw [(hsame new).2,update_self]
  · intro k hk
    have hs := hsame k
    rw [update_of_ne hk] at hs
    exact hs
  · intro k
    have hm := hmoved k
    by_cases hk : k=new
    · subst hk
      rw [update_self] at hm
      rw [hzero]
      exact hm
    · rw [update_of_ne hk] at hm
      exact hm
  · intro k hp hn
    rw [hother k hp hn,update_of_ne hn]

theorem create_debit (hc : iv.createAccount payer new amount space b=.ok b')
    (hk : (b k).owner≠systemProgram) : (b k).lamports.toNat≤(b' k).lamports.toNat := by
  obtain ⟨-,-,-,-,howner,-,-,-,-,hmoved,-⟩ := createAccount_spec hc
  have hm := hmoved k
  by_cases hp : k=payer
  · subst hp
    have hzero : amount=0#64 := howner.resolve_left hk
    subst hzero
    simp only [BitVec.toNat_ofNat,Nat.zero_mod,ite_self] at hm
    omega
  · rw [if_neg hp] at hm
    omega

theorem create_funded (hc : iv.createAccount payer new amount space b=.ok b') :
    amount.toNat≤(b' new).lamports.toNat := by
  obtain ⟨hzero,-,-,-,-,henough,-,-,-,hmoved,-⟩ := createAccount_spec hc
  have hm := hmoved new
  rw [if_pos rfl] at hm
  by_cases hself : new=payer
  · rw [← hself,hzero] at henough
    have hnone : (0#64).toNat=0 := rfl
    omega
  · rw [if_neg hself] at hm
    omega

theorem invoke_create
    (hi : iv.invoke [payer,new] (iv.createAccount payer new amount space) ⟨b,b⟩=.ok f) :
    ∃ b1,iv.createAccount payer new amount space b=.ok b1 ∧ f=⟨b1,b1⟩ := by
  refine invoke_clean hi ?_
  intro c hc k hk
  simp only [mem_cons,not_mem_nil,or_false,not_or] at hk
  exact (createAccount_spec hc).2.2.2.2.2.2.2.2.2.2 k hk.1 hk.2

theorem created_record {codec : Codec α} (hsize : codec.HasSize space)
    (hi : iv.invoke [payer,new] (iv.createAccount payer new amount space) ⟨b,b⟩=.ok f)
    (hstore : f.store codec x new=.ok g) :
    ∃ b1,iv.createAccount payer new amount space b=.ok b1 ∧ g=⟨b1,b1.setData new (codec.encode x)⟩ ∧
      ((b new).data=[] ∧ (b new).owner=systemProgram) ∧ (g.view new).owner=iv.programId ∧
      (g.view new).data=codec.encode x ∧
      ∀ j,j≠new → (g.view j).data=(b j).data ∧ (g.view j).owner=(b j).owner := by
  obtain ⟨b1,hcreate,rfl⟩ := invoke_create hi
  obtain ⟨-,hfresh,hunowned,-,-,-,hzeros,howner,hothers,-,-⟩ := createAccount_spec hcreate
  obtain rfl := (Frame.store_eq_ok hsize (by rw [hzeros]; exact length_replicate)).mp hstore
  refine ⟨b1,hcreate,rfl,⟨hfresh,hunowned⟩,(b1.setData_owner _ _ _).trans howner,
    b1.setData_same _ _,fun j hj => ?_⟩
  rw [b1.setData_other _ hj,b1.setData_owner]
  exact hothers j hj

theorem create_returns (hnew : b new=⟨0#64,[],systemProgram⟩)
    (hpayer : (b payer).data=[] ∧ (b payer).owner=systemProgram) (hne : payer≠new)
    (hle : amount.toNat≤(b payer).lamports.toNat)
    (hsystem : (iv.accounts.any fun a => a.key==systemProgram)=true)
    (hsigned : iv.signed payer=true) (hwpayer : iv.writable payer=true)
    (hwnew : iv.writable new=true) : ∃ b1,iv.createAccount payer new amount space b=.ok b1 ∧
      iv.invoke [payer,new] (iv.createAccount payer new amount space) ⟨b,b⟩=.ok ⟨b1,b1⟩ := by
  obtain ⟨b1,hcreate⟩ : ∃ b1,iv.createAccount payer new amount space b=.ok b1 := by
    have hcredit : checkedAdd 0#64 amount=some amount := by
      rw [checkedAdd_eq_some]
      simp
    let blank : Bank := update b new ⟨0#64,replicate space 0#8,iv.programId⟩
    refine ⟨(blank.setLamports payer ((blank payer).lamports-amount)).setLamports new amount,?_⟩
    simp only [createAccount,transfer,steps_ok]
    refine ⟨(),by rw [hnew],(),by simp [hnew],(),hsystem,(),hsigned,(),⟨hwpayer,hwnew⟩,(),?_,(),?_,
      (),?_,amount,?_,rfl⟩
    · rw [update_of_ne hne]
      exact hpayer.1
    · rw [update_of_ne hne]
      exact hle
    · rw [update_of_ne hne]
      exact .inl hpayer.2
    · rw [Bank.setLamports_lamports,if_neg (Ne.symm hne),update_self]
      exact hcredit
  have hclean : iv.sync [payer,new] ⟨b,b⟩=.ok () :=
    sync_eq_ok.mpr ⟨fun k _ => checkAccount_eq_ok.mpr ⟨.inr le_rfl,.inl rfl,.inl rfl,.inl rfl⟩,rfl⟩
  have hinvoke := invoke_eq_ok.mpr ⟨hclean,b1,hcreate,rfl⟩
  obtain ⟨b2,hcreate',hg⟩ := invoke_create hinvoke
  obtain rfl : b1=b2 := by
    rw [hcreate] at hcreate'
    exact Except.ok.inj hcreate'
  exact ⟨b1,hcreate,hg ▸ hinvoke⟩

theorem sync_of_data (hlamports : ∀ k,(b' k).lamports=(b k).lamports)
    (hdata : ∀ k,(b' k).data=(b k).data ∨ (b k).owner=iv.programId ∧ iv.writable k=true)
    (keys : List Pubkey) : iv.sync keys ⟨b,b'⟩=.ok () := by
  refine sync_eq_ok.mpr ⟨fun k _ => checkAccount_eq_ok.mpr ?_,?_⟩
  · dsimp only
    rw [hlamports k]
    exact ⟨.inr le_rfl,.inl rfl,(hdata k).imp Eq.symm And.right,(hdata k).imp Eq.symm And.left⟩
  · simp only [lamportsIn,hlamports]

end Invocation

/-- What a call leaves of its accounts passes the checks at the end. -/
abbrev Synced (id : Pubkey) (accounts : List AccountInfo) (f : Frame) : Prop :=
  Invocation.sync ⟨id,accounts⟩ (accounts.map AccountInfo.key) f=.ok ()

end PrismChain
