import PrismChain.Framework.Cells
import PrismChain.Programs.Oracle.Processor

namespace PrismChain.Oracle

open FixedWidth Option Function List BitVec Program Invocation

def feedAt (h : Host) (st : Storage PriceFeed) : Bank → Pubkey → Option PriceFeed :=
  cellAt st h.programId

def submission (oracle : Pubkey) (price : I128) (confidence : U64) (timestamp now : I64) :
    OracleSubmission := ⟨oracle,price,confidence,timestamp,now⟩

def aggregated (c : Call Instruction) (feed : PriceFeed) : List OracleSubmission :=
  match c.instruction,c.key? 0 with
  | .submitPrice price confidence timestamp,some oracle =>
    let submissions := submitted (submission oracle price confidence timestamp
      c.clock.unixTimestamp) feed.currentSubmissions.val
    if feed.minSubmissions.toNat≤ submissions.length then submissions else []
  | .forceAggregate,_ => feed.currentSubmissions.val
  | _,_ => []

inductive Change (now : I64) : Instruction → Pubkey → PriceFeed → PriceFeed → Prop
  | added {feed : PriceFeed} {signer oracle : Pubkey} {oracles : Vec Pubkey} {count : U32} :
      Change now (.addOracle oracle) signer feed
        {feed with oracles := oracles, oracleCount := count}
  | removed {feed : PriceFeed} {signer oracle : Pubkey} {oracles : Vec Pubkey} {count : U32} :
      Change now (.removeOracle oracle) signer feed {feed with
          oracles := oracles
          oracleCount := count
          currentSubmissions := retain (fun s => decide (s.oracle≠oracle)) feed.currentSubmissions}
  | submitted {feed feed' : PriceFeed} {signer : Pubkey} {price : I128} {confidence : U64}
      {timestamp : I64} {submissions : Vec OracleSubmission}
      (hage : (saturatingSubSigned now timestamp).toInt≤feed.maxStaleness.toInt)
      (hsubmit : submit feed.currentSubmissions
        (submission signer price confidence timestamp now)=some submissions)
      (hfeed : aggregateIfEnough {feed with currentSubmissions := submissions} now=.ok feed') :
      Change now (.submitPrice price confidence timestamp) signer feed feed'
  | forced {feed feed' : PriceFeed} {signer : Pubkey} (hfeed : aggregatePrices feed now=.ok feed') :
      Change now .forceAggregate signer feed feed'

inductive Accepted (h : Host) (st : Storage PriceFeed) (c : Call Instruction) (b b' : Bank) : Prop
  | same (hc : c.instruction=.readPrice) (hsame : feedAt h st b'=feedAt h st b)
  | initialized {k admin : Pubkey} {symbol : BitVec 256} {assetClass : AssetClass} {staleness : I64}
      {submissions : U32} {bump : U8}
      (hc : c.instruction=.initializeFeed symbol assetClass staleness submissions)
      (hnew : feedAt h st b k=none)
      (hfeeds : feedAt h st b'=Function.update (feedAt h st b) k
        (some (newFeed admin symbol assetClass staleness submissions bump)))
  | changed {k signer : Pubkey} {feed feed' : PriceFeed} (hsigner : c.key? 0=some signer)
      (hkey : c.key? 1=some k) (hfeed : feedAt h st b k=some feed)
      (hfeeds : feedAt h st b'=Function.update (feedAt h st b) k (some feed'))
      (hchange : Change c.clock.unixTimestamp c.instruction signer feed feed')

section Handlers

variable {st : Storage PriceFeed} {accounts : List AccountInfo} {admin : Pubkey}

theorem loadFeed_eq_ok : loadFeed h st ⟨b,b⟩ k=.ok feed ↔
    feedAt h st b k=some feed ∧ feed.isInitialized=true := by
  simp only [loadFeed,steps_ok,feedAt,cellAt_eq_some]
  constructor
  · rintro ⟨_,howner,feed,hload,_,hinit,rfl⟩
    exact ⟨⟨howner,hload⟩,hinit⟩
  · rintro ⟨⟨howner,hload⟩,hinit⟩
    exact ⟨(),howner,feed,hload,(),hinit,rfl⟩

theorem loadManaged_feed (hl : loadManaged h st ⟨b,b⟩ k admin=.ok feed) :
    feedAt h st b k=some feed := by
  simp only [loadManaged,steps_ok,loadFeed_eq_ok] at hl
  obtain ⟨_,⟨hfeed,-⟩,_,-,rfl⟩ := hl
  exact hfeed

theorem feed_written (hst : st.Exact) (hfeed : feedAt h st b k=some feed)
    (hstore : Frame.serialize ⟨b,b⟩ st feed' k=.ok f)
    (hsync : Synced h.programId accounts f)
    (hk : k∈accounts.map AccountInfo.key) :
    feedAt h st f.view=update (feedAt h st b) k (some feed') :=
  (stored_of_serialize hstore hsync hk).updated hst (cellAt_eq_some.mp hfeed).1

theorem execute_spec (hst : st.Exact) (hx : (program h st).execute c b=.ok b') :
    Accepted h st c b b' := by
  obtain ⟨f,hp,hsync,rfl⟩ := execute_eq_ok.mp hx
  obtain ⟨_,_,i⟩ := c
  cases i with
  | initializeFeed _ _ _ submissions =>
    dsimp only [program,processInstruction,processInitializeFeed] at hp
    split at hp <;> simp only [steps_ok] at hp
    rename_i admin account _ rest
    obtain ⟨_,-,_,-,_,hinvoke,hstore⟩ := hp
    obtain ⟨_,hcreate,rfl⟩ := invoke_create hinvoke
    exact .initialized rfl (created_fresh hcreate hst)
      (founded hcreate hst (stored_of_serialize hstore hsync (by simp)))
  | addOracle oracle =>
    dsimp only [program,processInstruction,processAddOracle] at hp
    split at hp <;> simp only [steps_ok] at hp
    rename_i admin account rest
    obtain ⟨_,-,feed,hl,_,-,_,-,_,-,hstore⟩ := hp
    have hfeed := loadManaged_feed hl
    exact .changed rfl rfl hfeed (feed_written hst hfeed hstore hsync (by simp)) .added
  | removeOracle oracle =>
    dsimp only [program,processInstruction,processRemoveOracle] at hp
    split at hp <;> simp only [steps_ok] at hp
    rename_i admin account rest
    obtain ⟨_,-,feed,hl,_,-,hstore⟩ := hp
    have hfeed := loadManaged_feed hl
    exact .changed rfl rfl hfeed (feed_written hst hfeed hstore hsync (by simp)) .removed
  | submitPrice =>
    dsimp only [program,processInstruction,processSubmitPrice] at hp
    split at hp <;> simp only [steps_ok,loadFeed_eq_ok] at hp
    rename_i account rest
    obtain ⟨_,-,feed,⟨hfeed,-⟩,_,-,_,-,_,-,_,hage,submissions,hsubmit,feed',hfeed',hstore⟩ := hp
    exact .changed rfl rfl hfeed (feed_written hst hfeed hstore hsync (by simp))
      (.submitted hage hsubmit hfeed')
  | forceAggregate =>
    dsimp only [program,processInstruction,processForceAggregate] at hp
    split at hp <;> simp only [steps_ok] at hp
    rename_i account rest
    obtain ⟨_,-,feed,hl,feed',hfeed',hstore⟩ := hp
    have hfeed := loadManaged_feed hl
    exact .changed rfl rfl hfeed (feed_written hst hfeed hstore hsync (by simp)) (.forced hfeed')
  | readPrice =>
    dsimp only [program,processInstruction,processReadPrice] at hp
    split at hp <;> simp only [steps_ok] at hp
    rename_i account rest
    obtain ⟨_,-,rfl⟩ := hp
    exact .same rfl rfl

end Handlers

/-- No observation comes from the future, and a round is closed while what was submitted for it is
still fresh. Only the age of the last submission is checked, and only from one side. -/
structure Timely (h : Host) (st : Storage PriceFeed) (b : Bank) (c : Call Instruction) : Prop where
  observed : ∀ {price confidence timestamp},c.instruction=.submitPrice price confidence timestamp →
      timestamp.toInt≤c.clock.unixTimestamp.toInt
  pending : ∀ {k feed},c.key? 1=some k → feedAt h st b k=some feed →
    ∀ x∈feed.currentSubmissions.val,x∈aggregated c feed →
      c.clock.unixTimestamp.toInt≤x.timestamp.toInt+feed.maxStaleness.toInt

structure PriceFeed.Dated (feed : PriceFeed) (now : I64) : Prop where
  staleness : feed.maxStaleness.toInt≤60
  submissions : ∀ x∈feed.currentSubmissions.val,x.timestamp.toInt≤now.toInt

section Submissions

variable {now timestamp : I64} {feed : PriceFeed} {x : OracleSubmission}

theorem mem_submitted (hx : x∈submitted s l) : x=s ∨ x∈l := by
  induction l with
  | nil => exact .inl (mem_singleton.mp hx)
  | cons _ l ih =>
    unfold submitted at hx
    split at hx
    · obtain rfl | hl := mem_cons.mp hx
      · exact .inl rfl
      · exact .inr (mem_cons_of_mem _ hl)
    · obtain rfl | hl := mem_cons.mp hx
      · exact .inr mem_cons_self
      · exact (ih hl).imp_right (mem_cons_of_mem _)

theorem submit_eq_some (h : submit v s=some w) : w.val=submitted s v.val := by
  unfold submit at h
  split at h
  · rw [← some.inj h]
  · cases h

theorem age_exact (hle : timestamp.toInt≤now.toInt)
    (hage : (saturatingSubSigned now timestamp).toInt≤bound)
    (hbound : bound≤60) : now.toInt≤timestamp.toInt+bound := by
  unfold saturatingSubSigned at hage
  cases hsub : checkedSubSigned now timestamp with
  | some =>
    rw [hsub,getD_some] at hage
    have hvalue := checkedSubSigned_eq_some.mp hsub
    omega
  | none =>
    rw [hsub,getD_none] at hage
    by_cases hneg : timestamp.toInt≤0
    · rw [if_pos hneg] at hage
      have hmax : (intMax 64).toInt=2^63-1 := by decide
      omega
    · -- a difference of a smaller nonnegative number fits
      have hfits : (now-timestamp).toInt=now.toInt-timestamp.toInt := by
        rw [toInt_sub]
        have hlt := toInt_lt (x := now)
        exact Int.bmod_eq_of_le (by omega) (by omega)
      rw [checkedSubSigned,if_pos hfits] at hsub
      cases hsub

theorem aggregatePrices_spec (h : aggregatePrices feed now=.ok feed') :
    feed'.currentSubmissions.val=[] ∧ feed'.maxStaleness=feed.maxStaleness ∧
      feed'.latestTimestamp=now ∧
      median (feed.currentSubmissions.val.map OracleSubmission.price)=some feed'.latestPrice := by
  simp only [aggregatePrices,steps_ok] at h
  obtain ⟨_,-,price,hprice,_,-,rfl⟩ := h
  exact ⟨rfl,rfl,rfl,hprice⟩

theorem aggregateIfEnough_spec (h : aggregateIfEnough feed now=.ok feed') :
    feed'.maxStaleness=feed.maxStaleness ∧
      ∀ x∈feed'.currentSubmissions.val,x∈feed.currentSubmissions.val := by
  unfold aggregateIfEnough at h
  split at h
  · obtain ⟨hempty,hstaleness,-⟩ := aggregatePrices_spec h
    refine ⟨hstaleness,fun x hx => ?_⟩
    rw [hempty] at hx
    cases hx
  · cases h
    exact ⟨rfl,fun _ hx => hx⟩

theorem newFeed_dated (admin : Pubkey) (symbol : BitVec 256) (assetClass : AssetClass)
    (staleness : I64) (submissions : U32) (bump : U8) (now : I64) :
    (newFeed admin symbol assetClass staleness submissions bump).Dated now := by
  have hmax : maxStalenessSeconds.toInt=60 := by decide
  have hdefault : defaultStaleness.toInt=30 := by decide
  refine ⟨?_,fun x hx => by cases hx⟩
  unfold newFeed
  dsimp only
  split
  · omega
  · split <;> omega

theorem Change.dated (hc : Change now i signer feed feed') (hd : feed.Dated now)
    (hobserved : ∀ {price confidence timestamp},i=.submitPrice price confidence timestamp →
      timestamp.toInt≤now.toInt) : feed'.Dated now := by
  cases hc with
  | added => exact ⟨hd.staleness,hd.submissions⟩
  | removed => exact ⟨hd.staleness,fun x hx => hd.submissions x (mem_of_mem_filter hx)⟩
  | submitted _ hsubmit hfeed =>
    obtain ⟨hstaleness,hkept⟩ := aggregateIfEnough_spec hfeed
    refine ⟨by rw [hstaleness]; exact hd.staleness,fun x hx => ?_⟩
    have hmem := hkept x hx
    dsimp only at hmem
    rw [submit_eq_some hsubmit] at hmem
    obtain rfl | hold := mem_submitted hmem
    · exact hobserved rfl
    · exact hd.submissions x hold
  | forced hfeed =>
    obtain ⟨hempty,hstaleness,-⟩ := aggregatePrices_spec hfeed
    refine ⟨by rw [hstaleness]; exact hd.staleness,fun x hx => ?_⟩
    rw [hempty] at hx
    cases hx

theorem PriceFeed.Dated.later {later : I64} (hd : feed.Dated now) (hle : now.toInt≤later.toInt) :
    feed.Dated later :=
  ⟨hd.staleness,fun x hx => (hd.submissions x hx).trans hle⟩

end Submissions

def AllDated (h : Host) (st : Storage PriceFeed) (t : Ledger) : Prop :=
  ∀ k feed,feedAt h st t.bank k=some feed → feed.Dated t.clock.unixTimestamp

theorem AllDated.step {st : Storage PriceFeed} (hst : st.Exact) (hall : AllDated h st s)
    (hstep : (program h st).Step (Timely h st) s a t) : AllDated h st t := by
  have htime := hstep.before.2
  intro k feed hfeed
  cases hstep with
  | outside _ hout =>
    exact (hall k feed (((congrFun (hout.cells_eq hst) k).symm).trans hfeed)).later htime
  | @call c b _ hok hx =>
    cases execute_spec hst hx with
    | same _ hsame =>
      have hbefore : feedAt h st s.bank k=some feed := by rw [← hsame]; exact hfeed
      exact (hall k feed hbefore).later htime
    | @initialized j _ _ _ _ _ _ _ _ hfeeds =>
      change feedAt h st b k=some feed at hfeed
      rw [hfeeds] at hfeed
      obtain ⟨-,rfl⟩ | ⟨-,hfeed⟩ := update_eq_some.mp hfeed
      · exact newFeed_dated _ _ _ _ _ _ _
      · exact (hall k feed hfeed).later htime
    | @changed j _ old _ _ _ hold hfeeds hchange =>
      change feedAt h st b k=some feed at hfeed
      rw [hfeeds] at hfeed
      obtain ⟨-,rfl⟩ | ⟨-,hfeed⟩ := update_eq_some.mp hfeed
      · exact hchange.dated ((hall j old hold).later htime) hok.observed
      · exact (hall k feed hfeed).later htime

def OracleSubmission.FreshAt (x : OracleSubmission) (now maxStaleness : I64) : Prop :=
  now.toInt-maxStaleness.toInt≤x.timestamp.toInt ∧ x.timestamp.toInt≤now.toInt

instance {x : OracleSubmission} {now maxStaleness : I64} : Decidable (x.FreshAt now maxStaleness) :=
  inferInstanceAs (Decidable (_∧_))

structure Closes (c : Call Instruction) (feed feed' : PriceFeed) : Prop where
  closed : aggregated c feed≠[] → feed'.latestTimestamp=c.clock.unixTimestamp ∧
      median ((aggregated c feed).map OracleSubmission.price)=some feed'.latestPrice
  open_ : aggregated c feed=[] →
    feed'.latestTimestamp=feed.latestTimestamp ∧ feed'.latestPrice=feed.latestPrice ∧
      feed'.history=feed.history

section Rounds

variable {c : Call Instruction}

theorem closes_of_none (hnone : aggregated c feed=[]) : Closes c feed feed :=
  ⟨fun hne => (hne hnone).elim,fun _ => ⟨rfl,rfl,rfl⟩⟩

theorem fresh_of_none (hnone : aggregated c feed=[]) :
    ∀ x∈aggregated c feed,x.FreshAt c.clock.unixTimestamp feed.maxStaleness := by
  intro x hx
  rw [hnone] at hx
  cases hx

theorem closes_of_change (hsigner : c.key? 0=some signer)
    (hc : Change c.clock.unixTimestamp c.instruction signer feed feed') : Closes c feed feed' := by
  obtain ⟨clock,accounts,i⟩ := c
  dsimp only at hc
  cases hc with
  | added => exact ⟨fun h => (h rfl).elim,fun _ => ⟨rfl,rfl,rfl⟩⟩
  | removed => exact ⟨fun h => (h rfl).elim,fun _ => ⟨rfl,rfl,rfl⟩⟩
  | @submitted _ _ _ price confidence timestamp submissions _ hsubmit hfeed =>
    have hval := submit_eq_some hsubmit
    unfold aggregateIfEnough at hfeed
    dsimp only at hfeed
    have hround : aggregated ⟨clock,accounts,.submitPrice price confidence timestamp⟩ feed=
        if feed.minSubmissions.toNat≤ submissions.val.length then submissions.val else [] := by
      rw [hval]
      simp only [aggregated,hsigner]
    split at hfeed
    case isTrue henough =>
      rw [if_pos henough] at hround
      obtain ⟨-,-,htime,hprice⟩ := aggregatePrices_spec hfeed
      refine ⟨fun _ => ⟨htime,by rw [hround]; exact hprice⟩,fun hempty => ?_⟩
      rw [hround] at hempty
      dsimp only at hprice
      rw [hempty] at hprice
      cases hprice
    case isFalse hfew =>
      rw [if_neg hfew] at hround
      cases hfeed
      exact ⟨fun h => (h hround).elim,fun _ => ⟨rfl,rfl,rfl⟩⟩
  | forced hfeed =>
    obtain ⟨-,-,htime,hprice⟩ := aggregatePrices_spec hfeed
    refine ⟨fun _ => ⟨htime,hprice⟩,fun hempty => ?_⟩
    change feed.currentSubmissions.val=[] at hempty
    rw [hempty] at hprice
    cases hprice

theorem fresh_of_change (hsigner : c.key? 0=some signer)
    (hc : Change c.clock.unixTimestamp c.instruction signer feed feed')
    (hd : feed.Dated c.clock.unixTimestamp)
    (hobserved : ∀ {price confidence timestamp},
    c.instruction=.submitPrice price confidence timestamp →
        timestamp.toInt≤c.clock.unixTimestamp.toInt)
    (hpending : ∀ x∈feed.currentSubmissions.val,x∈aggregated c feed →
      c.clock.unixTimestamp.toInt≤x.timestamp.toInt+feed.maxStaleness.toInt) :
    ∀ x∈aggregated c feed,x.FreshAt c.clock.unixTimestamp feed.maxStaleness := by
  have hold : ∀ x∈feed.currentSubmissions.val,x∈aggregated c feed →
      x.FreshAt c.clock.unixTimestamp feed.maxStaleness := fun x hx hused =>
    ⟨by have := hpending x hx hused; omega,hd.submissions x hx⟩
  obtain ⟨clock,_,i⟩ := c
  dsimp only at hc
  intro x hx
  cases hc with
  | added => cases hx
  | removed => cases hx
  | @submitted _ _ _ price confidence timestamp _ hage =>
    have hmem := hx
    simp only [aggregated,hsigner] at hmem
    split at hmem
    case isFalse => cases hmem
    obtain rfl | hin := mem_submitted hmem
    · have hle : timestamp.toInt≤clock.unixTimestamp.toInt := hobserved rfl
      have hexact := age_exact hle hage hd.staleness
      exact ⟨by dsimp only [submission]; omega,hle⟩
    · exact hold x hin hx
  | forced => exact hold x hx hx

end Rounds

/-- As long as observations are not from the future and rounds are closed in time, every submission
in a round is fresh when the round is closed, and the price is the median of just these. -/
theorem aggregated_prices_fresh {h : Host} {st : Storage PriceFeed} (hst : st.Exact) {s t : Ledger}
    {tr : Trace Instruction} (h0 : Untouched h.programId s.bank)
    (hrun : Run ((program h st).Step (Timely h st)) s tr t) {c : Call Instruction} {b' : Bank}
    (hclock : t.clock.before c.clock) (hok : Timely h st t.bank c)
    (hx : (program h st).execute c t.bank=.ok b') {k : Pubkey} {feed : PriceFeed}
    (hk : c.key? 1=some k) (hfeed : feedAt h st t.bank k=some feed) :
    (∀ x∈aggregated c feed,x.FreshAt c.clock.unixTimestamp feed.maxStaleness) ∧
      ∃ feed',feedAt h st b' k=some feed' ∧ Closes c feed feed' := by
  have hall : AllDated h st t := by
    refine hrun.invariant (I := AllDated h st) (fun k feed hfeed => ?_) fun hall hs =>
      hall.step hst hs
    rw [show feedAt h st s.bank k=none from h0.cells hst k] at hfeed
    cases hfeed
  have hdated := (hall k feed hfeed).later hclock.2
  cases execute_spec hst hx with
  | same hc hsame =>
    have hnone : aggregated c feed=[] := by simp only [aggregated,hc]
    exact ⟨fresh_of_none hnone,feed,by rw [hsame]; exact hfeed,closes_of_none hnone⟩
  | @initialized j _ _ _ _ _ _ hc hnew hfeeds =>
    have hne : k≠j := by
      rintro rfl
      rw [hnew] at hfeed
      cases hfeed
    have hnone : aggregated c feed=[] := by simp only [aggregated,hc]
    exact ⟨fresh_of_none hnone,feed,by
      rw [hfeeds,update_of_ne hne]; exact hfeed,closes_of_none hnone⟩
  | @changed j _ old new hsigner hkey hold hfeeds hchange =>
    cases hk.symm.trans hkey
    cases hfeed.symm.trans hold
    exact ⟨fresh_of_change hsigner hchange hdated hok.observed (hok.pending hk hfeed),new,
      by rw [hfeeds,update_self],closes_of_change hsigner hchange⟩

def sampleHost : Host where
  programId := 1#256
  findProgramAddress _ _ := (20#256,255#8)
  minimumBalance n := BitVec.ofNat 64 ((n+128)*6960)
  clockSysvar := 5#256

def sampleStorage : Storage PriceFeed := .whole 1#8 feedCodec

def genesis : Ledger where
  bank k := if k=2#256 then ⟨1000000000#64,[],systemProgram⟩ else unused
  clock := ⟨0#64,0#64⟩

theorem genesis_untouched : Untouched sampleHost.programId genesis.bank := by
  refine untouched_of_foreign fun k => ?_
  unfold genesis
  dsimp only
  split_ifs <;> decide

def adminCall (i : Instruction) : Call Instruction where
  clock := ⟨1#64,900#64⟩
  accounts := [⟨2#256,true,true⟩,⟨20#256,true,true⟩,systemInfo]
  instruction := i

def submitCall (oracle : Pubkey) (price : I128) (now : I64) : Call Instruction where
  clock := ⟨2#64,now⟩
  accounts := [⟨oracle,true,true⟩,⟨20#256,false,true⟩]
  instruction := .submitPrice price 1#64 now

def feedHistory : Option (Trace Instruction×Ledger) :=
  (program sampleHost sampleStorage).history
    [adminCall (.initializeFeed 7#256 .crypto 60#64 2#32),adminCall (.addOracle 3#256),
      adminCall (.addOracle 4#256),submitCall 3#256 100#128 1000#64] genesis

def timely (b : Bank) (c : Call Instruction) : Bool :=
  (match c.instruction with
    | .submitPrice _ _ timestamp => decide (timestamp.toInt≤c.clock.unixTimestamp.toInt)
    | _ => true) &&
  (c.key? 1).all fun k => (feedAt sampleHost sampleStorage b k).all fun feed =>
    feed.currentSubmissions.val.all fun x => decide (x∈aggregated c feed →
      c.clock.unixTimestamp.toInt≤x.timestamp.toInt+feed.maxStaleness.toInt)

theorem timely_sound (hc : timely b c=true) : Timely sampleHost sampleStorage b c := by
  obtain ⟨hobserved,hpending⟩ := Bool.and_eq_true_iff.mp hc
  constructor
  · intro price confidence timestamp hi
    simpa only [hi,decide_eq_true_eq] using hobserved
  · intro k feed hk hfeed x hx
    rw [hk,Option.all_some,hfeed,Option.all_some,List.all_eq_true] at hpending
    exact of_decide_eq_true (hpending x hx)

def timelyTrace (tr : Trace Instruction) : Bool :=
  tr.all fun x =>
    match x.label with
    | .outside => true
    | .call c => timely x.pre.bank c

theorem timelyTrace_sound (htr : timelyTrace tr=true) :
    ∀ x∈tr,∀ c,x.label=.call c → Timely sampleHost sampleStorage x.pre.bank c := by
  intro x hx c hlabel
  have hcheck := all_eq_true.mp htr x hx
  rw [hlabel] at hcheck
  exact timely_sound hcheck

def roundTimes (c : Call Instruction) (b : Bank) : Option (List I64) :=
  (feedAt sampleHost sampleStorage b 20#256).map fun feed =>
    (aggregated c feed).map OracleSubmission.timestamp

def accepted (c : Call Instruction) (b : Bank) : Bool :=
  ((program sampleHost sampleStorage).execute c b).toOption.isSome

theorem accepted_execute (hc : accepted c b=true) :
    ∃ b',(program sampleHost sampleStorage).execute c b=.ok b' := by
  obtain ⟨b',hb'⟩ := isSome_iff_exists.mp hc
  exact ⟨b',toOption_eq_some.mp hb'⟩

theorem fresh_round_of_two : ∃ tr t b' feed,
    Run ((program sampleHost sampleStorage).Step (Timely sampleHost sampleStorage)) genesis tr t ∧
      (program sampleHost sampleStorage).execute (submitCall 4#256 102#128 1010#64) t.bank=.ok b' ∧
      feedAt sampleHost sampleStorage t.bank 20#256=some feed ∧
      (aggregated (submitCall 4#256 102#128 1010#64) feed).map OracleSubmission.timestamp=
        [1000#64,1010#64] ∧
      (∀ x∈aggregated (submitCall 4#256 102#128 1010#64) feed,x.FreshAt 1010#64 feed.maxStaleness) ∧
      ∃ feed',feedAt sampleHost sampleStorage b' 20#256=some feed' ∧
        Closes (submitCall 4#256 102#128 1010#64) feed feed' := by
  obtain ⟨⟨tr,t⟩,hhistory,hvalues⟩ : ∃ x,feedHistory=some x ∧ (x.2.clock,timelyTrace x.1 && timely
        x.2.bank (submitCall 4#256 102#128 1010#64),accepted (submitCall 4#256 102#128 1010#64)
        x.2.bank,roundTimes (submitCall 4#256 102#128 1010#64)
        x.2.bank)=(⟨2#64,1000#64⟩,true,true,some [1000#64,1010#64]) := by decide +kernel
  simp only [Prod.mk.injEq,Bool.and_eq_true] at hvalues
  obtain ⟨hclock,⟨htr,htimely⟩,haccepted,htimes⟩ := hvalues
  obtain ⟨b',hx⟩ := accepted_execute haccepted
  obtain ⟨feed,hfeed,htimes⟩ := map_eq_some_iff.mp htimes
  have hrun := history_run hhistory (timelyTrace_sound htr)
  have hbefore : t.clock.before (submitCall 4#256 102#128 1010#64).clock := by
    rw [hclock]
    decide
  exact ⟨tr,t,b',feed,hrun,hx,hfeed,htimes,aggregated_prices_fresh
    (Storage.whole_exact (by decide) _) genesis_untouched hrun hbefore (timely_sound htimely) hx rfl
    hfeed⟩

/-- The second submission comes more than an hour later, and the first one is still used. -/
theorem round_with_stale_price : ∃ tr t b' feed x,Untouched sampleHost.programId genesis.bank ∧
      Run ((program sampleHost sampleStorage).Step anyCall) genesis tr t ∧
      t.clock.before (submitCall 4#256 102#128 5000#64).clock ∧
      (program sampleHost sampleStorage).execute (submitCall 4#256 102#128 5000#64) t.bank=.ok b' ∧
      feedAt sampleHost sampleStorage t.bank 20#256=some feed ∧
      x∈aggregated (submitCall 4#256 102#128 5000#64) feed ∧ x.timestamp=1000#64 ∧
      ¬x.FreshAt 5000#64 feed.maxStaleness := by
  simp only [exists_and_left,OracleSubmission.FreshAt]
  exact ⟨genesis_untouched,exists_run_any
    [adminCall (.initializeFeed 7#256 .crypto 60#64 2#32),adminCall (.addOracle 3#256),
      adminCall (.addOracle 4#256),submitCall 3#256 100#128 1000#64] (by decide +kernel)⟩

end PrismChain.Oracle
