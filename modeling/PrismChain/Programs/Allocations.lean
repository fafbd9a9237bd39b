import PrismChain.Framework.Allocation
import PrismChain.Programs.DefiOracle.Aggregation
import PrismChain.Programs.FlashLoan.Processor
import PrismChain.Programs.Launchpad.Processor
import PrismChain.Programs.Oracle.Processor

namespace PrismChain

open Codec List Program Invocation

/-- The values for which four programs allocate an account once and for all. -/
inductive StateValue where
  | pool (p : FlashLoan.FlashLoanPool)
  | feed (f : Oracle.PriceFeed)
  | assetFeed (f : DefiOracle.PriceFeed)
  | launch (l : Launchpad.LaunchConfig)
  | participation (p : Launchpad.Participation)

namespace StateValue

def space : StateValue → Nat
  | pool _ => FlashLoan.poolSpace
  | feed _ => Oracle.feedSpace
  | assetFeed _ => DefiOracle.feedLen
  | launch _ => Launchpad.launchConfigSize
  | participation _ => Launchpad.participationSize

def encoded : StateValue → List Byte
  | pool p => FlashLoan.poolCodec.encode p
  | feed f => Oracle.feedCodec.encode f
  | assetFeed f => DefiOracle.feedCodec.encode f
  | launch l => Launchpad.launchCodec.encode l
  | participation p => Launchpad.participationCodec.encode p

def ReadBack (v : StateValue) : Prop :=
  match v with
  | pool p => FlashLoan.poolCodec.ReadBack v.space p
  | feed f => Oracle.feedCodec.ReadBack v.space f
  | assetFeed f => DefiOracle.feedCodec.ReadBack v.space f
  | launch l => Launchpad.launchCodec.ReadBack v.space l
  | participation p => Launchpad.participationCodec.ReadBack v.space p

def leaves (v : StateValue) : Option (List Byte) :=
  match v with
  | pool p => FlashLoan.poolCodec.writeTo p (List.replicate v.space 0#8)
  | feed f => Oracle.feedCodec.writeTo f (List.replicate v.space 0#8)
  | assetFeed f => DefiOracle.feedCodec.writeTo f (List.replicate v.space 0#8)
  | launch l => Launchpad.launchCodec.writeTo l (List.replicate v.space 0#8)
  | participation p => Launchpad.participationCodec.writeTo p (List.replicate v.space 0#8)

def Decodes (v : StateValue) (d : List Byte) : Prop :=
  match v with
  | pool p => FlashLoan.poolCodec.tryFromSlice d=some p
  | feed f => Oracle.feedCodec.tryFromSlice d=some f
  | assetFeed f => DefiOracle.feedCodec.tryFromSlice d=some f
  | launch l => Launchpad.launchCodec.tryFromSlice d=some l
  | participation p => Launchpad.participationCodec.tryFromSlice d=some p

def Admissible : StateValue → Prop
  | pool p => p.providers.val.length≤FlashLoan.maxProviders
  | feed f => f.oracles.val.length≤Oracle.maxOracles ∧
      f.currentSubmissions.val.length≤f.oracles.val.length ∧
      f.history.val.length≤Oracle.maxHistory
  | assetFeed f => (utf8 f.asset.val).length≤32 ∧ f.publishers.val.length≤DefiOracle.maxPublishers
  | launch _ => True
  | participation _ => True

/-- The only values that have the size of their account: feeds with the longest name and as many
publishers as there may be. -/
def Fills : StateValue → Prop
  | assetFeed f => (utf8 f.asset.val).length=32 ∧ f.publishers.val.length=DefiOracle.maxPublishers
  | _ => False

theorem readBack_iff (v : StateValue) : v.ReadBack ↔ v.encoded.length=v.space := by
  cases v <;> exact Codec.readBack_iff

theorem decodes_iff {v : StateValue} (hd : v.leaves=some d) :
    v.Decodes d ↔ v.encoded.length=v.space := by
  cases v <;> exact (written_iff hd).trans (by rw [length_replicate]; rfl)

end StateValue

section Lengths

theorem Oracle.feed_length (f : Oracle.PriceFeed) : (Oracle.feedCodec.encode f).length=
    137+32*f.oracles.val.length+72*f.currentSubmissions.val.length+44*f.history.val.length := by
  have hsubmission : Oracle.submissionCodec.HasSize 72 := fun _ => by simp [Oracle.submissionCodec]
  have hround : Oracle.roundCodec.HasSize 44 := fun _ => by simp [Oracle.roundCodec]
  simp only [Oracle.feedCodec,record_length,pair_length,vec_length hsubmission,vec_length hround,
    vec_length pubkey_length,bool_length,pubkey_length,uint_length,u8_length,u32_length,u64_length,
    i64_length,i128_length,Oracle.assetClassCodec,enumeration_length]
  omega

theorem DefiOracle.feed_length (f : DefiOracle.PriceFeed) : (DefiOracle.feedCodec.encode f).length=
    78+(utf8 f.asset.val).length+32*f.publishers.val.length := by
  simp only [DefiOracle.feedCodec,record_length,pair_length,string_length,vec_length pubkey_length,
    bool_length,pubkey_length,u8_length,u32_length,u64_length,i64_length]
  omega

theorem Launchpad.launch_size : Launchpad.launchCodec.HasSize 140 :=
  fun _ => by simp [Launchpad.launchCodec,Launchpad.typeCodec]

theorem Launchpad.participation_size : Launchpad.participationCodec.HasSize 91 :=
  fun _ => by simp [Launchpad.participationCodec]

theorem StateValue.length_iff {v : StateValue} (hv : v.Admissible) :
    v.encoded.length=v.space ↔ v.Fills := by
  cases v with
  | pool p =>
    have hlen := FlashLoan.pool_length p
    have hspace : FlashLoan.poolSpace=14431 := by decide
    simp only [encoded,space,Fills,iff_false]
    omega
  | feed f =>
    have hlen := Oracle.feed_length f
    have hspace : Oracle.feedSpace=6656 := by decide
    have horacles : Oracle.maxOracles=16 := rfl
    have hhistory : Oracle.maxHistory=32 := rfl
    simp only [Admissible] at hv
    simp only [encoded,space,Fills,iff_false]
    omega
  | assetFeed f =>
    have hlen := DefiOracle.feed_length f
    have hspace : DefiOracle.feedLen=622 := by decide
    have hmax : DefiOracle.maxPublishers=16 := rfl
    simp only [Admissible] at hv
    simp only [encoded,space,Fills]
    omega
  | launch l =>
    have hlen := Launchpad.launch_size l
    have hspace : Launchpad.launchConfigSize=203 := by decide
    simp only [encoded,space,Fills,iff_false]
    omega
  | participation p =>
    have hlen := Launchpad.participation_size p
    have hspace : Launchpad.participationSize=90 := by decide
    simp only [encoded,space,Fills,iff_false]
    omega

end Lengths

inductive Opened : StateValue → List Byte → Prop
  | pool {h : Host} {c : Call FlashLoan.Instruction} {b b' : Bank} {admin k tokenMint : Pubkey}
      (hc : c.instruction=.initializePool tokenMint) (hadmin : c.key? 0=some admin)
      (hk : c.key? 1=some k) (hx : (FlashLoan.deployedProgram h).execute c b=.ok b') :
      Opened (.pool (FlashLoan.newPool h admin tokenMint)) (b' k).data
  | feed {h : Host} {c : Call Oracle.Instruction} {b b' : Bank} {admin k : Pubkey}
      {symbol : BitVec 256} {assetClass : Oracle.AssetClass} {staleness : I64} {submissions : U32}
      (hc : c.instruction=.initializeFeed symbol assetClass staleness submissions)
      (hadmin : c.key? 0=some admin) (hk : c.key? 1=some k)
      (hx : (Oracle.program h (.inPlace Oracle.feedCodec)).execute c b=.ok b') :
      Opened (.feed (Oracle.newFeed admin symbol assetClass staleness submissions
        (h.findProgramAddress [Oracle.feedSeed,leBytes 32 symbol.toNat] h.programId).2)) (b' k).data
  | assetFeed {h : Host} {c : Call DefiOracle.Instruction} {b b' : Bank} {authority k : Pubkey}
      {asset : DefiOracle.AssetName} {publishers : Vec Pubkey}
      (hc : c.instruction=.createFeed asset publishers) (hauthority : c.key? 0=some authority)
      (hk : c.key? 1=some k) (hx : (DefiOracle.program h .borsh).execute c b=.ok b') :
      Opened (.assetFeed (DefiOracle.newFeed authority asset publishers
        (h.findProgramAddress [DefiOracle.feedSeed,utf8 asset.val] h.programId).2)) (b' k).data
  | launch {e : Deployment} {c : Call Launchpad.Instruction} {b b' : Bank} {creator k mint : Pubkey}
      {allocation price minimum maximum : U64} {first last : I64} {type : Launchpad.LaunchType}
      (hc : c.instruction=.createLaunch allocation price first last minimum maximum type)
      (hcreator : c.key? 0=some creator) (hk : c.key? 1=some k) (hmint : c.key? 2=some mint)
      (hx : (Launchpad.program e .borsh).execute c b=.ok b') :
      Opened (.launch (Launchpad.newLaunch e mint creator allocation price first last minimum
        maximum type)) (b' k).data

theorem Opened.spec (ho : Opened v d) : v.Admissible ∧ v.leaves=some d := by
  cases ho with
  | @pool h c b b' admin k tokenMint hc hadmin hk hx =>
    obtain ⟨f,hp,-,rfl⟩ := execute_eq_ok.mp hx
    obtain ⟨clock,accounts,i⟩ := c
    obtain rfl : i=.initializePool tokenMint := hc
    change FlashLoan.processInitializePool h accounts tokenMint ⟨b,b⟩=.ok f at hp
    unfold FlashLoan.processInitializePool at hp
    split at hp
    case h_2 => cases hp
    rename_i payer poolAccount vaultAccount mint system rest
    cases hadmin
    cases hk
    simp only [steps_ok] at hp
    obtain ⟨_,-,_,-,_,-,f1,hpool,_,hvault,hstore⟩ := hp
    obtain ⟨b1,hcreate,rfl⟩ := invoke_create hpool
    obtain ⟨_,hcreate2,rfl⟩ := invoke_create hvault
    -- the vault is made in another account, since this one is in use by now
    have hblank := created_data hcreate
    have hne : poolAccount.key≠vaultAccount.key := by
      intro he
      rw [he,(createAccount_spec hcreate2).2.1] at hblank
      exact absurd (congrArg length hblank) (by rw [length_replicate]; decide)
    refine ⟨Nat.zero_le _,blank_write ?_ hstore⟩
    rw [(created_others hcreate2 hne).1]
    exact hblank
  | @feed h c b b' admin k symbol assetClass staleness submissions hc hadmin hk hx =>
    obtain ⟨f,hp,-,rfl⟩ := execute_eq_ok.mp hx
    obtain ⟨clock,accounts,i⟩ := c
    obtain rfl : i=.initializeFeed symbol assetClass staleness submissions := hc
    change Oracle.processInitializeFeed h _ accounts symbol assetClass staleness submissions
      ⟨b,b⟩=.ok f at hp
    unfold Oracle.processInitializeFeed at hp
    split at hp
    case h_2 => cases hp
    rename_i payer feedAccount system rest
    cases hadmin
    cases hk
    simp only [steps_ok] at hp
    obtain ⟨_,-,_,-,f1,hinvoke,hstore⟩ := hp
    obtain ⟨b1,hcreate,rfl⟩ := invoke_create hinvoke
    exact ⟨⟨Nat.zero_le _,le_rfl,Nat.zero_le _⟩,blank_write (created_data hcreate) hstore⟩
  | @assetFeed h c b b' authority k asset publishers hc hauthority hk hx =>
    obtain ⟨f,hp,-,rfl⟩ := execute_eq_ok.mp hx
    obtain ⟨clock,accounts,i⟩ := c
    obtain rfl : i=.createFeed asset publishers := hc
    change DefiOracle.processCreateFeed h .borsh accounts asset publishers ⟨b,b⟩=.ok f at hp
    unfold DefiOracle.processCreateFeed at hp
    split at hp
    case h_2 => cases hp
    rename_i payer feedInfo system rest
    cases hauthority
    cases hk
    simp only [steps_ok] at hp
    obtain ⟨_,-,_,hname,_,hcount,_,-,f1,hinvoke,hstore⟩ := hp
    obtain ⟨b1,hcreate,rfl⟩ := invoke_create hinvoke
    exact ⟨⟨hname,hcount⟩,blank_write (created_data hcreate) hstore⟩
  | @launch e c b b' creator k mint allocation price minimum maximum first last type hc hcreator hk
      hmint hx =>
    obtain ⟨f,hp,-,rfl⟩ := execute_eq_ok.mp hx
    obtain ⟨clock,accounts,i⟩ := c
    obtain rfl : i=.createLaunch allocation price first last minimum maximum type := hc
    change Launchpad.processCreateLaunch e .borsh accounts allocation price first last minimum
      maximum type ⟨b,b⟩=.ok f at hp
    unfold Launchpad.processCreateLaunch at hp
    split at hp
    case h_2 => cases hp
    rename_i payer launchAccount tokenMint _ _
    cases hcreator
    cases hk
    cases hmint
    simp only [steps_ok] at hp
    obtain ⟨_,-,_,-,_,-,_,-,_,-,_,-,f1,hinvoke,hstore⟩ := hp
    obtain ⟨b1,hcreate,rfl⟩ := invoke_create hinvoke
    exact ⟨trivial,blank_write (created_data hcreate) hstore⟩

theorem participation_never_opened {e : Deployment} {fm : Launchpad.Formats}
    (hfm : fm.participation=.inPlace Launchpad.participationCodec) {c : Call Launchpad.Instruction}
    (hc : c.instruction=.participate amount) (hk : c.key? 2=some k) (hempty : (b k).data=[]) :
    (Launchpad.program e fm).execute c b≠.ok b' := by
  intro hx
  obtain ⟨f,hp,-,rfl⟩ := execute_eq_ok.mp hx
  obtain ⟨clock,accounts,i⟩ := c
  obtain rfl : i=.participate amount := hc
  change Launchpad.processParticipate e fm clock accounts amount ⟨b,b⟩=.ok f at hp
  unfold Launchpad.processParticipate at hp
  split at hp
  case h_2 => cases hp
  rename_i participationAccount _ _
  cases hk
  simp only [steps_ok] at hp
  obtain ⟨_,-,_,-,_,-,_,-,_,-,_,-,_,-,_,-,_,-,_,hopen,-⟩ := hp
  rw [Launchpad.openParticipation,if_pos hempty,hfm] at hopen
  simp only [bind_eq_ok] at hopen
  obtain ⟨_,hinvoke,hstore⟩ := hopen
  obtain ⟨_,hcreate,rfl⟩ := invoke_create hinvoke
  have hwrite := blank_write (created_data hcreate) hstore
  unfold writeTo at hwrite
  rw [if_neg] at hwrite
  · cases hwrite
  · rw [Launchpad.participation_size,length_replicate]
    decide

/-- State that is written is read back exactly if it fills the account allocated for it, which among
all admissible values only feeds of the defi suite do, with a name of 32 bytes and 16 publishers;
so it is for what accepted instructions leave in new accounts, and participations are not even
written. -/
theorem state_read_back_iff (v : StateValue) : (v.Admissible → (v.ReadBack ↔ v.Fills)) ∧
    (∀ d,Opened v d → v.Admissible ∧ v.leaves=some d ∧ (v.Decodes d ↔ v.Fills)) ∧
    ∀ e fm c amount k b b',fm.participation=.inPlace Launchpad.participationCodec →
      c.instruction=.participate amount → c.key? 2=some k → (b k).data=[] →
      (Launchpad.program e fm).execute c b≠.ok b' := by
  refine ⟨fun hv => v.readBack_iff.trans (StateValue.length_iff hv),fun d ho => ?_,
    fun _ _ _ _ _ _ _ hfm hc hk hempty => participation_never_opened hfm hc hk hempty⟩
  obtain ⟨hv,hd⟩ := ho.spec
  exact ⟨hv,hd,(StateValue.decodes_iff hd).trans (StateValue.length_iff hv)⟩

def longestFeed : DefiOracle.PriceFeed :=
  DefiOracle.newFeed 2#256 ⟨"PRISM/USD PRISM/USD PRISM/USD AB",by decide +kernel⟩
    ⟨List.replicate 16 3#256,by decide⟩ 255#8

theorem longestFeed_read_back : (StateValue.assetFeed longestFeed).Admissible ∧
    (StateValue.assetFeed longestFeed).ReadBack := by
  have hname : (utf8 longestFeed.asset.val).length=32 := by decide +kernel
  have hcount : longestFeed.publishers.val.length=16 := length_replicate
  have hv : (StateValue.assetFeed longestFeed).Admissible := ⟨hname.le,hcount.le⟩
  exact ⟨hv,((state_read_back_iff _).1 hv).mpr ⟨hname,hcount⟩⟩

/-- A feed with two publishers is created in an account that the next instruction cannot read. -/
theorem created_feed_unreadable : ∃ b',
    (DefiOracle.program DefiOracle.sampleHost .borsh).execute DefiOracle.createCall
      DefiOracle.genesis.bank=.ok b' ∧
    DefiOracle.feedCodec.tryFromSlice (b' 20#256).data=none ∧
    (DefiOracle.program DefiOracle.sampleHost .borsh).execute
      (DefiOracle.updateCall 3#256 30#256 100#64) b'=.error .borshIoError := by decide +kernel

end PrismChain
