import PrismChain.Math.Ring
import PrismChain.Programs.Oracle.Freshness

namespace PrismChain.Oracle

open FixedWidth Option Function List BitVec Program

/-- The round with the number `n` as it is aggregated from the submissions. -/
def roundOf (n : Nat) (submissions : List OracleSubmission) (now : I64) : PriceRound :=
  let price := (median (submissions.map OracleSubmission.price)).getD 0#128
  ⟨BitVec.ofNat 64 n,price,aggregateConfidence submissions price,BitVec.ofNat 32 submissions.length,
    now⟩

def closedBy (h : Host) (st : Storage PriceFeed) (k : Pubkey)
    (x : LogEntry Instruction) : List (List OracleSubmission×I64) :=
  match x.label,feedAt h st x.pre.bank k with
  | .call c,some feed =>
    if c.key? 1=some k ∧
      aggregated c feed≠[] then [(aggregated c feed,c.clock.unixTimestamp)] else []
  | _,_ => []

/-- The rounds that were aggregated on the feed at `k`, in their order and numbered from one. -/
def rounds (h : Host) (st : Storage PriceFeed) (k : Pubkey) (tr : Trace Instruction) :
    List PriceRound :=
  (tr.flatMap (closedBy h st k)).mapIdx fun i x => roundOf (i+1) x.1 x.2

/-- The feed has counted the rounds `l` and holds the last of them. -/
structure Recorded (feed : PriceFeed) (l : List PriceRound) : Prop where
  count : feed.currentRound.toNat=l.length
  history : Ring maxHistory feed.history.val l
  latest : ∀ r∈l.getLast?,feed.latestPrice=r.price ∧ feed.latestConfidence=r.confidence ∧
    feed.latestTimestamp=r.timestamp

section Rounds

variable {feed' : PriceFeed} {c : Call Instruction}

theorem rounds_none (hx : closedBy h st k x=[]) : rounds h st k (tr++[x])=rounds h st k tr := by
  simp [rounds,hx]

theorem rounds_one (hx : closedBy h st k x=[(submissions,now)]) :
    rounds h st k (tr++[x])=
      rounds h st k tr++[roundOf ((rounds h st k tr).length+1) submissions now] := by
  simp [rounds,hx,mapIdx_append]

theorem Recorded.aggregate (hr : Recorded feed l) (hroom : l.length+1<2^64)
    (ha : aggregatePrices feed now=.ok feed') :
    Recorded feed' (l++[roundOf (l.length+1) feed.currentSubmissions.val now]) := by
  simp only [aggregatePrices,steps_ok] at ha
  obtain ⟨-,-,price,hprice,history,hhistory,rfl⟩ := ha
  have hcount := hr.count
  have hnext : (saturatingAdd feed.currentRound 1#64).toNat=l.length+1 := by
    rw [toNat_saturatingAdd,hcount]
    have hone : (1#64).toNat=1 := rfl
    omega
  have hround : (⟨saturatingAdd feed.currentRound 1#64,price,
      aggregateConfidence feed.currentSubmissions.val price,
      BitVec.ofNat 32 feed.currentSubmissions.val.length,now⟩ : PriceRound)=
      roundOf (l.length+1) feed.currentSubmissions.val now := by
    have hid : saturatingAdd feed.currentRound 1#64=BitVec.ofNat 64 (l.length+1) := by
      rw [← hnext,ofNat_toNat,setWidth_eq]
    unfold roundOf
    rw [hprice,hid]
    rfl
  rw [hround] at hhistory
  refine ⟨?_,?_,fun r hlast => ?_⟩
  · dsimp only
    rw [hnext,length_append,length_singleton]
  · unfold recordRound at hhistory
    split_ifs at hhistory with hfull
    · rw [← some.inj hhistory]
      have hindex :
          (roundOf (l.length+1) feed.currentSubmissions.val now).roundId.toNat-1=l.length := by
        change (BitVec.ofNat 64 (l.length+1)).toNat-1=l.length
        rw [toNat_ofNat,Nat.mod_eq_of_lt hroom,Nat.add_sub_cancel]
      dsimp only
      rw [hindex]
      exact hr.history.overwrite (by decide) hfull _
    · dsimp only
      rw [Vec.push_eq_some.mp hhistory]
      exact hr.history.push (by omega) _
  · rw [getLast?_concat] at hlast
    cases hlast
    dsimp only
    unfold roundOf
    rw [hprice]
    exact ⟨rfl,rfl,rfl⟩

theorem Recorded.same (hr : Recorded feed l) (hround : feed'.currentRound=feed.currentRound)
    (hhistory : feed'.history=feed.history) (hprice : feed'.latestPrice=feed.latestPrice)
    (hconfidence : feed'.latestConfidence=feed.latestConfidence)
    (htimestamp : feed'.latestTimestamp=feed.latestTimestamp) : Recorded feed' l := by
  refine ⟨by rw [hround]; exact hr.count,by rw [hhistory]; exact hr.history,?_⟩
  rw [hprice,hconfidence,htimestamp]
  exact hr.latest

theorem Recorded.change (hr : Recorded feed l) (hsigner : c.key? 0=some signer)
    (hc : Change c.clock.unixTimestamp c.instruction signer feed feed') :
    (aggregated c feed=[] → Recorded feed' l) ∧ (aggregated c feed≠[] → l.length+1<2^64 →
      Recorded feed' (l++[roundOf (l.length+1) (aggregated c feed) c.clock.unixTimestamp])) := by
  obtain ⟨clock,accounts,i⟩ := c
  dsimp only at hc
  cases hc with
  | added => exact ⟨fun _ => hr.same rfl rfl rfl rfl rfl,fun hne => absurd rfl hne⟩
  | removed => exact ⟨fun _ => hr.same rfl rfl rfl rfl rfl,fun hne => absurd rfl hne⟩
  | @submitted _ _ _ price confidence timestamp submissions _ hsubmit hfeed =>
    have hnew :
      Recorded {feed with currentSubmissions := submissions} l := hr.same rfl rfl rfl rfl rfl
    have hround : aggregated ⟨clock,accounts,.submitPrice price confidence timestamp⟩ feed=
        if feed.minSubmissions.toNat≤ submissions.val.length then submissions.val else [] := by
      rw [submit_eq_some hsubmit]
      simp only [aggregated,hsigner]
    unfold aggregateIfEnough at hfeed
    dsimp only at hfeed
    rw [hround]
    split at hfeed
    case isTrue henough =>
      rw [if_pos henough]
      refine ⟨fun hempty => ?_,fun _ hroom => hnew.aggregate hroom hfeed⟩
      have hprice := (aggregatePrices_spec hfeed).2.2.2
      dsimp only at hprice
      rw [hempty] at hprice
      cases hprice
    case isFalse hfew =>
      rw [if_neg hfew]
      cases hfeed
      exact ⟨fun _ => hnew,fun hne => absurd rfl hne⟩
  | forced hfeed =>
    refine ⟨fun hempty => ?_,fun _ hroom => hr.aggregate hroom hfeed⟩
    have hprice := (aggregatePrices_spec hfeed).2.2.2
    rw [show feed.currentSubmissions.val=[] from hempty] at hprice
    cases hprice

theorem newFeed_recorded (admin : Pubkey) (symbol : BitVec 256) (assetClass : AssetClass)
    (staleness : I64) (submissions : U32) (bump : U8) :
    Recorded (newFeed admin symbol assetClass staleness submissions bump) [] :=
  ⟨rfl,Ring.nil _,nofun⟩

end Rounds

/-- What the run has closed on the feed at `k` is what the feed remembers of it. -/
structure Remembered (h : Host) (st : Storage PriceFeed) (k : Pubkey) (tr : Trace Instruction)
    (b : Bank) : Prop where
  unborn : feedAt h st b k=none → rounds h st k tr=[]
  recorded : ∀ {feed},feedAt h st b k=some feed → (rounds h st k tr).length<2^64 →
    Recorded feed (rounds h st k tr)

section Runs

variable {h : Host} {st : Storage PriceFeed} {s t u : Ledger}

theorem closedBy_eq_nil {c : Call Instruction} (hnone : ∀ feed,feedAt h st t.bank k=some feed →
    c.key? 1=some k → aggregated c feed=[]) : closedBy h st k ⟨t,.call c,u⟩=[] := by
  unfold closedBy
  cases hfeed : feedAt h st t.bank k with
  | none => rfl
  | some feed => exact if_neg fun hclosed => hclosed.2 (hnone feed hfeed hclosed.1)

theorem closedBy_call {c : Call Instruction} (hkey : c.key? 1=some k)
    (hfeed : feedAt h st t.bank k=some feed) (hne : aggregated c feed≠[]) :
    closedBy h st k ⟨t,.call c,u⟩=[(aggregated c feed,c.clock.unixTimestamp)] := by
  unfold closedBy
  rw [hfeed]
  exact if_pos ⟨hkey,hne⟩

theorem Remembered.same (hr : Remembered h st k tr t.bank)
    (hsame : feedAt h st u.bank k=feedAt h st t.bank k) (hnone : closedBy h st k ⟨t,a,u⟩=[]) :
    Remembered h st k (tr++[⟨t,a,u⟩]) u.bank := by
  constructor
  · rw [hsame,rounds_none hnone]
    exact hr.unborn
  · rw [hsame,rounds_none hnone]
    exact hr.recorded

theorem Remembered.step (hst : st.Exact) (hr : Remembered h st k tr t.bank)
    (hstep : (program h st).Step anyCall t a u) : Remembered h st k (tr++[⟨t,a,u⟩]) u.bank := by
  cases hstep with
  | outside _ hout => exact hr.same (congrFun (hout.cells_eq hst) k) rfl
  | @call c b _ _ hx =>
    cases execute_spec hst hx with
    | same hc hsame =>
      exact hr.same (congrFun hsame k) (closedBy_eq_nil fun _ _ _ => by simp only [aggregated,hc])
    | @initialized j _ _ _ _ _ _ hc hnew hfeeds =>
      have hnone : closedBy h st k ⟨t,.call c,⟨b,c.clock⟩⟩=[] :=
        closedBy_eq_nil fun _ _ _ => by simp only [aggregated,hc]
      by_cases hk : k=j
      · subst hk
        have hfeed := congrFun hfeeds k
        rw [update_self] at hfeed
        refine ⟨fun hempty => ?_,fun hfeed' _ => ?_⟩
        · cases hempty.symm.trans hfeed
        cases hfeed.symm.trans hfeed'
        rw [rounds_none hnone,hr.unborn hnew]
        exact newFeed_recorded _ _ _ _ _ _
      · refine hr.same ?_ hnone
        dsimp only
        rw [hfeeds,update_of_ne hk]
    | @changed j _ feed feed' hsigner hkey hfeed hfeeds hchange =>
      by_cases hk : k=j
      · subst hk
        have hfeed' : feedAt h st b k=some feed' := by rw [hfeeds,update_self]
        refine ⟨fun hempty => ?_,fun hfeed1 hroom => ?_⟩
        · cases hempty.symm.trans hfeed'
        cases hfeed'.symm.trans hfeed1
        by_cases hempty : aggregated c feed=[]
        · rw [rounds_none (closedBy_eq_nil fun feed1 hfeed1 _ => by
            rwa [← some.inj (hfeed.symm.trans hfeed1)])] at hroom ⊢
          exact ((hr.recorded hfeed hroom).change hsigner hchange).1 hempty
        · rw [rounds_one (closedBy_call hkey hfeed hempty)] at hroom ⊢
          rw [length_append,length_singleton] at hroom
          exact ((hr.recorded hfeed (by omega)).change hsigner hchange).2 hempty hroom
      · refine hr.same ?_ (closedBy_eq_nil fun _ _ hkey' => ?_)
        · dsimp only
          rw [hfeeds,update_of_ne hk]
        · exact absurd (some.inj (hkey'.symm.trans hkey)) hk

/-- The history of a feed is the last thirty-two rounds, the round `r` at the index `r-1` modulo
thirty-two, and the latest price is the one of the last round. -/
theorem history_last_rounds (hst : st.Exact) (h0 : Untouched h.programId s.bank)
    (hrun : Run ((program h st).Step anyCall) s tr t)
    (hfeed : cellAt st h.programId t.bank k=some feed) (hn : (rounds h st k tr).length=n)
    (hlimit : n<2^64) :
    feed.history.val.length=min n maxHistory ∧ (∀ r,1≤ r → n+1≤ r+maxHistory → r≤n →
        feed.history.val[(r-1)%maxHistory]?=(rounds h st k tr)[r-1]?) ∧
      ∀ last∈(rounds h st k tr)[n-1]?,feed.latestPrice=last.price ∧
        feed.latestConfidence=last.confidence ∧ feed.latestTimestamp=last.timestamp := by
  have hstart : Remembered h st k [] s.bank := by
    refine ⟨fun _ => rfl,fun hfeed => ?_⟩
    cases (h0.cells hst k).symm.trans hfeed
  have hremembered := hrun.traced (I := fun tr t => Remembered h st k tr t.bank) hstart
    fun _ hr hstep => hr.step hst hstep
  obtain ⟨-,⟨hlength,hslot⟩,hlatest⟩ := hremembered.recorded hfeed (by rw [hn]; exact hlimit)
  rw [hn] at hlength hslot
  refine ⟨hlength,fun r hone hrecent hr => hslot (r-1) (by omega) (by omega),fun last hlast => ?_⟩
  exact hlatest last (by rw [getLast?_eq_getElem?,hn]; exact hlast)

end Runs

/-- The only oracle reports once a minute. -/
def minuteCalls (n : Nat) : List (Call Instruction) :=
  [adminCall (.initializeFeed 7#256 .crypto 60#64 1#32),adminCall (.addOracle 3#256)]++
    (List.range n).map fun i =>
      submitCall 3#256 (BitVec.ofNat 128 (101+i)) (BitVec.ofNat 64 (1000+60*i))

theorem old_rounds_overwritten : ∃ x feed,
    (program sampleHost sampleStorage).history (minuteCalls 34) genesis=some x ∧
      cellAt sampleStorage 1#256 x.2.bank 20#256=some feed ∧ feed.latestPrice=134#128 ∧
      feed.history.val.length=32 ∧
      feed.history.val[1]?=(rounds sampleHost sampleStorage 20#256 x.1)[33]? ∧
      feed.history.val[2]?=(rounds sampleHost sampleStorage 20#256 x.1)[2]? := by
  obtain ⟨x,hx,feed,hfeed,hprice,hn⟩ : ∃ x∈(program sampleHost sampleStorage).history
        (minuteCalls 34) genesis,∃ feed∈cellAt sampleStorage 1#256 x.2.bank 20#256,
      feed.latestPrice=134#128 ∧ (rounds sampleHost sampleStorage 20#256 x.1).length=34 := by
    decide +kernel
  have hrun := history_anyCall hx
  obtain ⟨hlength,hrounds,-⟩ := history_last_rounds (Storage.whole_exact (by decide) _)
    genesis_untouched hrun hfeed hn (by decide)
  exact ⟨x,feed,hx,hfeed,hprice,hlength,hrounds 34 (by decide) (by decide) le_rfl,
    hrounds 3 (by decide) (by decide) (by decide)⟩

end PrismChain.Oracle
