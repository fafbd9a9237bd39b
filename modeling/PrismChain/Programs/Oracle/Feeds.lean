import PrismChain.Framework.Storage
import PrismChain.Programs.Pusd.Valuation
import PrismChain.Programs.Scusd.State

namespace PrismChain.Oracle

inductive AssetClass where
  | crypto
  | forex
  | commodity
  | equity
  deriving DecidableEq

structure OracleSubmission where
  oracle : Pubkey
  price : I128
  confidence : U64
  timestamp : I64
  slotTimestamp : I64
  deriving DecidableEq

structure PriceRound where
  roundId : U64
  price : I128
  confidence : U64
  numSubmissions : U32
  timestamp : I64
  deriving DecidableEq

structure PriceFeed where
  isInitialized : Bool
  admin : Pubkey
  symbol : BitVec 256
  assetClass : AssetClass
  decimals : U8
  maxStaleness : I64
  minSubmissions : U32
  currentRound : U64
  latestPrice : I128
  latestConfidence : U64
  latestTimestamp : I64
  isActive : Bool
  bump : U8
  oracleCount : U32
  oracles : Vec Pubkey
  currentSubmissions : Vec OracleSubmission
  history : Vec PriceRound

open Codec

def assetClassCodec : Codec AssetClass :=
  enumeration {all := [.crypto,.forex,.commodity,.equity]}

def submissionCodec : Codec OracleSubmission :=
  (pubkeyCodec.pair (i128.pair (u64.pair (i64.pair i64)))).record (fun (o,p,c,t,s) => ⟨o,p,c,t,s⟩)
    (fun x => (x.oracle,x.price,x.confidence,x.timestamp,x.slotTimestamp))

def roundCodec : Codec PriceRound :=
  (u64.pair (i128.pair (u64.pair (u32.pair i64)))).record (fun (r,p,c,n,t) => ⟨r,p,c,n,t⟩)
    (fun x => (x.roundId,x.price,x.confidence,x.numSubmissions,x.timestamp))

def feedCodec : Codec PriceFeed :=
  (bool.pair (pubkeyCodec.pair ((uint 32).pair (assetClassCodec.pair (u8.pair (i64.pair (u32.pair
    (u64.pair (i128.pair (u64.pair (i64.pair (bool.pair (u8.pair (u32.pair ((vec pubkeyCodec).pair
      ((vec submissionCodec).pair (vec roundCodec))))))))))))))))).record
    (fun (i,a,s,k,d,m,n,r,p,c,t,v,b,o,os,ss,hs) => ⟨i,a,s,k,d,m,n,r,p,c,t,v,b,o,os,ss,hs⟩)
    (fun f => (f.isInitialized,f.admin,f.symbol,f.assetClass,f.decimals,f.maxStaleness,
      f.minSubmissions,f.currentRound,f.latestPrice,f.latestConfidence,f.latestTimestamp,
      f.isActive,f.bump,f.oracleCount,f.oracles,f.currentSubmissions,f.history))

end PrismChain.Oracle

namespace PrismChain.DefiOracle

structure PriceFeed where
  asset : {s : String // (Codec.utf8 s).length<2^32}
  price : U64
  confidence : U64
  lastUpdateSlot : U64
  lastUpdateTimestamp : I64
  authority : Pubkey
  publishers : Vec Pubkey
  numSubmissions : U32
  bump : U8
  isInitialized : Bool

open Codec

def feedCodec : Codec PriceFeed :=
  (string.pair (u64.pair (u64.pair (u64.pair (i64.pair (pubkeyCodec.pair ((vec pubkeyCodec).pair
    (u32.pair (u8.pair bool))))))))).record
    (fun (a,p,c,s,t,k,l,n,b,i) => ⟨a,p,c,s,t,k,l,n,b,i⟩)
    (fun f => (f.asset,f.price,f.confidence,f.lastUpdateSlot,f.lastUpdateTimestamp,f.authority,
      f.publishers,f.numSubmissions,f.bump,f.isInitialized))

def PriceFeed.fields (d : PriceFeed) : Nat :=
  d.price.toNat+2^64*(d.confidence.toNat+2^64*(d.lastUpdateSlot.toNat+
    2^64*(d.lastUpdateTimestamp.toNat+2^64*(d.authority.toNat+2^256*d.publishers.val.length))))

end PrismChain.DefiOracle

namespace PrismChain

open Codec

theorem ofNat_leValue (bs : List Byte) (hlen : bs.length≤8) :
    (BitVec.ofNat 64 (leValue bs)).toNat=leValue bs := by
  rw [BitVec.toNat_ofNat]
  refine Nat.mod_eq_of_lt ((leValue_lt bs).trans_le ?_)
  calc 256^bs.length≤256^8 := Nat.pow_le_pow_right (by norm_num) hlen
    _ = 2^64 := by norm_num

theorem price_of_word {bs : List Byte} (hbs : bs.length≤8) :
    (BitVec.ofNat 64 (leValue bs)≠0#64 ∧ BitVec.ofNat 64 (leValue bs)=p) ↔
    p≠0#64 ∧ p.toNat=leValue bs := by
  have hval := ofNat_leValue bs hbs
  constructor
  · intro ⟨hpos,hp⟩
    subst hp
    exact ⟨hpos,hval⟩
  · intro ⟨hpos,hp⟩
    have heq : BitVec.ofNat 64 (leValue bs)=p := BitVec.eq_of_toNat_eq (hval.trans hp.symm)
    exact ⟨by rw [heq]; exact hpos,heq⟩

theorem Pusd.readOraclePrice_eq_ok :
    Pusd.readOraclePrice data=.ok p ↔ 8≤data.length ∧ p≠0#64 ∧ p.toNat=leValue (data.take 8) := by
  rw [← price_of_word (List.length_take_le 8 data)]
  simp only [Pusd.readOraclePrice,steps_ok,exists_const]

theorem Scusd.readOraclePrice_eq_ok : Scusd.readOraclePrice data=.ok p ↔
      72≤data.length ∧ p≠0#64 ∧ p.toNat=leValue ((data.drop 64).take 8) := by
  rw [← price_of_word (List.length_take_le 8 _)]
  simp only [Scusd.readOraclePrice,steps_ok,exists_const]

theorem feed_front (f : Oracle.PriceFeed) (rest : List Byte) :
    8≤(Oracle.feedCodec.encode f++rest).length ∧ leValue ((Oracle.feedCodec.encode f++rest).take 8)=
        (if f.isInitialized then 1 else 0)+256*(f.admin.toNat%2^56) := by
  obtain ⟨tail,htail⟩ : ∃ tail,Oracle.feedCodec.encode f++rest=
      bool.encode f.isInitialized++(leBytes 32 f.admin.toNat++tail) :=
    ⟨_,by
      change (bool.encode f.isInitialized++(leBytes 32 f.admin.toNat++_))++rest=_
      rw [List.append_assoc,List.append_assoc]⟩
  have hflag : bool.encode f.isInitialized=[if f.isInitialized then 1#8 else 0#8] := by
    cases f.isInitialized <;> rfl
  have hadmin : leValue ((leBytes 32 f.admin.toNat++tail).take 7)=f.admin.toNat%2^56 := by
    rw [List.take_append_of_le_length (by simp),leValue_take,leValue_leBytes,
      Nat.mod_mod_of_dvd _ (pow_dvd_pow 256 (by decide))]
    rfl
  rw [htail,hflag]
  refine ⟨by simp; omega,?_⟩
  rw [List.singleton_append,List.take_succ_cons,leValue,hadmin]
  cases f.isInitialized <;> rfl

section Layout

variable (d : DefiOracle.PriceFeed) (rest : List Byte)

theorem defi_encode : ∃ tail,DefiOracle.feedCodec.encode d++rest=
    string.encode d.asset++(leBytes 8 d.price.toNat++(leBytes 8 d.confidence.toNat++
      (leBytes 8 d.lastUpdateSlot.toNat++(leBytes 8 d.lastUpdateTimestamp.toNat++
        (leBytes 32 d.authority.toNat++(leBytes 4 d.publishers.val.length++tail)))))) := by
  have hcount :
      leBytes 4 d.publishers.val.length=u32.encode (BitVec.ofNat 32 d.publishers.val.length) := by
    change _=leBytes 4 (BitVec.ofNat 32 d.publishers.val.length).toNat
    rw [BitVec.toNat_ofNat,Nat.mod_eq_of_lt d.publishers.property]
  rw [hcount]
  exact ⟨_,by
    change (string.encode d.asset++(leBytes 8 d.price.toNat++(leBytes 8 d.confidence.toNat++
      (leBytes 8 d.lastUpdateSlot.toNat++(leBytes 8 d.lastUpdateTimestamp.toNat++
        (leBytes 32 d.authority.toNat++((u32.encode _++_)++_)))))))++rest=_
    simp only [List.append_assoc]
    rfl⟩

theorem defi_layout : ∃ body tail,DefiOracle.feedCodec.encode d++rest=
    string.encode d.asset++(body++tail) ∧ body.length=68 ∧ leValue body=d.fields := by
  obtain ⟨tail,htail⟩ := defi_encode d rest
  refine ⟨leBytes 8
    d.price.toNat++(leBytes 8 d.confidence.toNat++(leBytes 8 d.lastUpdateSlot.toNat++
    (leBytes 8 d.lastUpdateTimestamp.toNat++(leBytes 32 d.authority.toNat++
      leBytes 4 d.publishers.val.length)))),tail,?_,by simp,?_⟩
  · rw [htail]
    simp only [List.append_assoc]
  have hword (n : Nat) {v : Nat} (hv : v<2^(8*n)) : leValue (leBytes n v)=v := by
    rw [leValue_leBytes,pow256,Nat.mod_eq_of_lt hv]
  simp only [leValue_append,leBytes_length,hword 8 d.price.isLt,hword 8 d.confidence.isLt,
    hword 8 d.lastUpdateSlot.isLt,hword 8 d.lastUpdateTimestamp.isLt,hword 32 d.authority.isLt,
    hword 4 d.publishers.property,pow256,DefiOracle.PriceFeed.fields]

theorem defi_slice {n : Nat} (hname : (utf8 d.asset.val).length=n) (hn : n≤60) :
    72≤(DefiOracle.feedCodec.encode d++rest).length ∧
      leValue (((DefiOracle.feedCodec.encode d++rest).drop 64).take 8)=
        d.fields/256^(60-n)%2^64 := by
  obtain ⟨body,tail,hlayout,hbody,hfields⟩ := defi_layout d rest
  have hstring : (string.encode d.asset).length=4+n := by rw [string_length,hname]
  rw [hlayout]
  refine ⟨by simp only [List.length_append,hbody,hstring]; omega,?_⟩
  have hskip : 64=(string.encode d.asset).length+(60-n) := by omega
  have hdrop : (string.encode d.asset++(body++tail)).drop 64=(body++tail).drop (60-n) := by
    rw [hskip,List.drop_append]
    simp
  have hinside : (body++tail).drop (60-n)=body.drop (60-n)++tail :=
    List.drop_append_of_le_length (by omega)
  rw [hdrop,hinside,List.take_append_of_le_length (by simp; omega),leValue_slice,hfields]
  rfl

end Layout

/-- What the two readers return on the accounts of the two oracles, whatever follows the feed:
the flag and the start of the admin key for one; for the other eight bytes whose place depends on
the length of the name, and which are the price behind names of exactly 60 bytes. -/
theorem price_readers_on_feeds (f : Oracle.PriceFeed) (d : DefiOracle.PriceFeed)
    (rest : List Byte) :
    (∀ p,Pusd.readOraclePrice (Oracle.feedCodec.encode f++rest)=.ok p ↔ p≠0#64 ∧
      p.toNat=(if f.isInitialized then 1 else 0)+256*(f.admin.toNat%2^56)) ∧
    (∀ n,(utf8 d.asset.val).length=n → n≤60 →
      ∀ p,Scusd.readOraclePrice (DefiOracle.feedCodec.encode d++rest)=.ok p ↔
        p≠0#64 ∧ p.toNat=d.fields/256^(60-n)%2^64) ∧
    ((utf8 d.asset.val).length=60 →
    ∀ p,Scusd.readOraclePrice (DefiOracle.feedCodec.encode d++rest)=.ok p ↔
        p≠0#64 ∧ p=d.price) := by
  have hscusd {n : Nat} (hname : (utf8 d.asset.val).length=n) (hn : n≤60) (p : U64) :
      Scusd.readOraclePrice (DefiOracle.feedCodec.encode d++rest)=.ok p ↔
        p≠0#64 ∧ p.toNat=d.fields/256^(60-n)%2^64 := by
    obtain ⟨hlen,hvalue⟩ := defi_slice d rest hname hn
    rw [Scusd.readOraclePrice_eq_ok,hvalue]
    exact ⟨fun hp => hp.2,fun hp => ⟨hlen,hp⟩⟩
  refine ⟨fun p => ?_,fun n hname hn p => hscusd hname hn p,fun hname p => ?_⟩
  · obtain ⟨hlen,hvalue⟩ := feed_front f rest
    rw [Pusd.readOraclePrice_eq_ok,hvalue]
    exact ⟨fun hp => hp.2,fun hp => ⟨hlen,hp⟩⟩
  · have hprice : d.fields/256^(60-60)%2^64=d.price.toNat := by
      rw [Nat.sub_self,pow_zero,Nat.div_one,DefiOracle.PriceFeed.fields,Nat.add_mul_mod_self_left]
      exact Nat.mod_eq_of_lt d.price.isLt
    rw [hscusd hname le_rfl,hprice,BitVec.toNat_inj]

def sampleFeed : Oracle.PriceFeed :=
  ⟨true,2#256,0#256,.crypto,8#8,60#64,1#32,1#64,1000000000#128,0#64,1000#64,true,255#8,0#32,
    ⟨[],by decide⟩,⟨[],by decide⟩,⟨[],by decide⟩⟩

def sampleDefiFeed : DefiOracle.PriceFeed :=
  ⟨⟨"PRISM/USD",by decide +kernel⟩,100000000#64,0#64,1#64,1000#64,
    0x10000000000000000000000000000000000000000#256,⟨[],by decide⟩,1#32,255#8,true⟩

theorem price_readers_on_samples :
    (Pusd.readOraclePrice (Oracle.feedCodec.encode sampleFeed++[])=.ok 513#64 ↔
      513#64≠0#64 ∧ (513#64).toNat=1+256*(2%2^56)) ∧
    (Scusd.readOraclePrice (DefiOracle.feedCodec.encode sampleDefiFeed++[])=.ok 256#64 ↔
      256#64≠0#64 ∧ (256#64).toNat=sampleDefiFeed.fields/256^(60-9)%2^64) :=
  have hall := price_readers_on_feeds sampleFeed sampleDefiFeed []
  ⟨hall.1 513#64,hall.2.1 9 (by decide +kernel) (by decide) 256#64⟩

/-- Ten dollars are read as 513 units, and one dollar as 256. -/
theorem readers_miss_prices : sampleFeed.latestPrice=1000000000#128 ∧
      Pusd.readOraclePrice (Oracle.feedCodec.encode sampleFeed)=.ok 513#64 ∧
      sampleDefiFeed.price=100000000#64 ∧
      Scusd.readOraclePrice (DefiOracle.feedCodec.encode sampleDefiFeed)=.ok 256#64 := by
  refine ⟨rfl,?_,rfl,?_⟩
  · rw [Pusd.readOraclePrice_eq_ok]
    decide +kernel
  · rw [Scusd.readOraclePrice_eq_ok]
    decide +kernel

end PrismChain
