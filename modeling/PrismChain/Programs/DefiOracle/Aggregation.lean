import PrismChain.Programs.DefiOracle.Processor

namespace PrismChain.DefiOracle

open FixedWidth Option List Program Invocation

def submissionAt (h : Host) (fm : Formats) : Bank → Pubkey → Option PriceSubmission :=
  cellAt fm.submission h.programId

def submits (publisher feed : Pubkey) (x : LogEntry Instruction) :
    Option (U64×U64) :=
  match x.label with
  | .outside => none
  | .call c =>
    match c.instruction with
    | .updatePrice price _ =>
      if c.key? 0=some publisher ∧ c.key? 1=some feed then some (price,c.clock.slot) else none
    | _ => none

def latest (publisher feed : Pubkey) (tr : Trace Instruction) : Option (U64×U64) :=
  (tr.filterMap (submits publisher feed)).getLast?

inductive Accepted (h : Host) (fm : Formats) (c : Call Instruction) (b b' : Bank) : Prop
  | same (hc : ∀ price confidence,c.instruction≠.updatePrice price confidence)
      (hsame : submissionAt h fm b'=submissionAt h fm b)
  | updated {publisher feed k : Pubkey} {price confidence : U64} {s : PriceSubmission}
      (hc : c.instruction=.updatePrice price confidence) (hpublisher : c.key? 0=some publisher)
      (hfeed : c.key? 1=some feed) (hk : (submissionPda h feed publisher).1=k)
      (hs : s.publisher=publisher ∧ s.feed=feed ∧ s.price=price ∧ s.slot=c.clock.slot)
      (hbefore : ∀ j s',submissionAt h fm b' j=some s' →
        j=k ∧ s'=s ∨ j≠k ∧ submissionAt h fm b j=some s')

section Handlers

variable {h : Host} {fm : Formats} {clock : Clock} {accounts : List AccountInfo} {k : Pubkey}
  {feed : PriceFeed}

theorem loadFeed_eq_ok : loadFeed fm f k=.ok feed ↔
    fm.feed.load (f.view k).data=some feed ∧ feed.isInitialized=true := by
  simp only [loadFeed,steps_ok]
  constructor
  · rintro ⟨feed,hload,_,hinit,rfl⟩
    exact ⟨hload,hinit⟩
  · rintro ⟨hload,hinit⟩
    exact ⟨feed,hload,(),hinit,rfl⟩

theorem loadManaged_load (hl : loadManaged fm f k authority=.ok feed) :
    fm.feed.load (f.view k).data=some feed := by
  simp only [loadManaged,steps_ok,loadFeed_eq_ok] at hl
  obtain ⟨_,⟨hload,-⟩,_,-,rfl⟩ := hl
  exact hload

theorem submissions_kept (hfm : fm.Decoded) (hload : fm.feed.load (b k).data=some feed)
    (hstore : Frame.serialize ⟨b,b⟩ fm.feed feed' k=.ok f)
    (hsync : Synced h.programId accounts f)
    (hk : k∈accounts.map AccountInfo.key) : submissionAt h fm f.view=submissionAt h fm b :=
  (stored_of_serialize hstore hsync hk).apart hfm.feed hfm.apart
    (Storage.Apart.clear hfm.apart hload)

theorem execute_spec (hfm : fm.Decoded) (hx : (program h fm).execute c b=.ok b') :
    Accepted h fm c b b' := by
  obtain ⟨f,hp,hsync,rfl⟩ := execute_eq_ok.mp hx
  obtain ⟨clock,_,i⟩ := c
  cases i with
  | createFeed =>
    dsimp only [program,processInstruction,processCreateFeed] at hp
    split at hp <;> simp only [steps_ok] at hp
    rename_i authority feedInfo _ rest
    obtain ⟨_,-,_,-,_,-,_,-,f1,hinvoke,hstore⟩ := hp
    obtain ⟨b1,hcreate,rfl⟩ := invoke_create hinvoke
    exact .same (by simp) (founded_apart hcreate hfm.feed hfm.submission hfm.apart
      (stored_of_serialize hstore hsync (by simp)))
  | updatePrice price confidence =>
    dsimp only [program,processInstruction,processUpdatePrice] at hp
    split at hp <;> simp only [steps_ok] at hp
    rename_i publisher feedInfo submissionInfo _ rest
    obtain ⟨_,-,_,-,feed,-,_,-,_,hkey,f1,hopen,hstore⟩ := hp
    refine .updated (s := ⟨publisher.key,feedInfo.key,price,confidence,clock.slot,
      clock.unixTimestamp,(submissionPda h feedInfo.key publisher.key).2,true⟩) rfl rfl rfl
      hkey.symm ⟨rfl,rfl,rfl,rfl⟩ fun j s' hs' => ?_
    unfold openSubmission at hopen
    split at hopen
    case isTrue =>
      obtain ⟨b1,hcreate,rfl⟩ := invoke_create hopen
      have hfounded := founded hcreate hfm.submission (stored_of_serialize hstore hsync (by simp))
      change submissionAt h fm f.view=_ at hfounded
      rw [hfounded] at hs'
      exact (update_eq_some.mp hs').imp_left fun h => ⟨h.1,h.2.symm⟩
    case isFalse =>
      cases hopen
      have hwrote :=
        wrote_of_save (Frame.serialize_eq_ok.mp hstore) hsync (by simp : submissionInfo.key∈_)
      exact (hwrote.cell_before hs').imp_left fun hj => ⟨hj.1,hj.2.2⟩
  | aggregatePrices =>
    dsimp only [program,processInstruction,processAggregatePrices] at hp
    split at hp <;> simp only [steps_ok,loadFeed_eq_ok] at hp
    rename_i feedInfo _
    obtain ⟨_,-,feed,⟨hload,-⟩,_,-,price,-,_,-,hstore⟩ := hp
    exact .same (by simp) (submissions_kept hfm hload hstore hsync (by simp))
  | addPublisher publisher =>
    dsimp only [program,processInstruction,processAddPublisher] at hp
    split at hp <;> simp only [steps_ok] at hp
    rename_i authority feedInfo rest
    obtain ⟨_,-,feed,hl,_,-,_,-,_,-,hstore⟩ := hp
    exact .same (by simp) (submissions_kept hfm (loadManaged_load hl) hstore hsync (by simp))
  | removePublisher publisher =>
    dsimp only [program,processInstruction,processRemovePublisher] at hp
    split at hp <;> simp only [steps_ok] at hp
    rename_i authority feedInfo rest
    obtain ⟨_,-,feed,hl,_,-,hstore⟩ := hp
    exact .same (by simp) (submissions_kept hfm (loadManaged_load hl) hstore hsync (by simp))

theorem aggregatePrices_spec (hfm : fm.Decoded) {c : Call Instruction}
    (hc : c.instruction=.aggregatePrices) (hx : (program h fm).execute c b=.ok b') :
    ∃ k feed feed',c.key? 1=some k ∧ fm.feed.load (b k).data=some feed ∧
      fm.feed.load (b' k).data=some feed' ∧
      computeMedian ((collect fm c.clock k feed ⟨b,b⟩ (c.accounts.drop 2)).map
        PriceSubmission.price)=some feed'.price ∧
      feed'.numSubmissions=
        BitVec.ofNat 32 (collect fm c.clock k feed ⟨b,b⟩ (c.accounts.drop 2)).length := by
  obtain ⟨f,hp,hsync,rfl⟩ := execute_eq_ok.mp hx
  obtain ⟨clock,accounts,i⟩ := c
  obtain rfl : i=.aggregatePrices := hc
  dsimp only [program,processInstruction,processAggregatePrices] at hp
  split at hp <;> simp only [steps_ok,loadFeed_eq_ok] at hp
  rename_i feedInfo _
  obtain ⟨_,-,feed,⟨hload,-⟩,_,-,price,hprice,_,-,hstore⟩ := hp
  exact ⟨feedInfo.key,feed,_,rfl,hload,(stored_of_serialize hstore hsync (by simp)).loaded hfm.feed,
    hprice,rfl⟩

end Handlers

def Attributed (h : Host) (fm : Formats) (tr : Trace Instruction) (t : Ledger) : Prop :=
  ∀ k s,submissionAt h fm t.bank k=some s → (submissionPda h s.feed s.publisher).1=k ∧
    latest s.publisher s.feed tr=some (s.price,s.slot)

theorem latest_kept (hx : submits publisher feed x=none) :
    latest publisher feed (tr++[x])=latest publisher feed tr := by
  simp [latest,filterMap_append,hx]

theorem latest_last (hx : submits publisher feed x=some v) :
    latest publisher feed (tr++[x])=some v := by
  simp [latest,filterMap_append,hx]

theorem Attributed.step {fm : Formats} (hfm : fm.Decoded) (hall : Attributed h fm tr s)
    (hstep : (program h fm).Step anyCall s a t) : Attributed h fm (tr++[⟨s,a,t⟩]) t := by
  intro k x hk
  cases hstep with
  | outside _ hout =>
    obtain ⟨hpda,hlatest⟩ := hall k x (((congrFun (hout.cells_eq hfm.submission) k).symm).trans hk)
    exact ⟨hpda,(latest_kept rfl).trans hlatest⟩
  | @call c b _ _ hx =>
    cases execute_spec hfm hx with
    | same hc hsame =>
      obtain ⟨hpda,hlatest⟩ := hall k x (by rw [← hsame]; exact hk)
      refine ⟨hpda,(latest_kept ?_).trans hlatest⟩
      unfold submits
      dsimp only
      split
      · exact absurd ‹_› (hc _ _)
      · rfl
    | @updated publisher feed _ _ _ _ hc hpublisher hfeed hk' hs hbefore =>
      obtain ⟨rfl,rfl⟩ | ⟨hne,hold⟩ := hbefore k x hk
      · obtain ⟨rfl,rfl,rfl,hslot⟩ := hs
        refine ⟨hk',latest_last ?_⟩
        simp only [submits,hc,hpublisher,hfeed,and_self,if_true,hslot]
      · obtain ⟨hpda,hlatest⟩ := hall k x hold
        refine ⟨hpda,(latest_kept ?_).trans hlatest⟩
        -- the same publisher and feed would have the same address
        simp only [submits,hc,hpublisher,hfeed,some_inj]
        refine if_neg ?_
        rintro ⟨rfl,rfl⟩
        exact hne (hpda.symm.trans hk')

/-- The accounts passed to an aggregation are different, and only the program's own hold
submissions. The loop checks neither. -/
structure Genuine (h : Host) (fm : Formats) (b : Bank) (c : Call Instruction) : Prop where
  distinct : ((c.accounts.drop 2).map AccountInfo.key).Nodup
  owned : ∀ info∈c.accounts.drop 2,∀ s,fm.submission.load (b info.key).data=some s →
    (b info.key).owner=h.programId

section Votes

variable {infos : List AccountInfo} {s : PriceSubmission}

theorem countable_eq_some (hs : countable fm clock k feed data=some s) :
    fm.submission.load data=some s ∧ s.feed=k ∧ s.publisher∈feed.publishers.val ∧
      clock.slot.toNat≤ s.slot.toNat+maxStalenessSlots.toNat := by
  unfold countable at hs
  split at hs
  case isTrue => cases hs
  obtain ⟨hload,hcond⟩ := filter_eq_some_iff.mp hs
  simp only [Bool.and_eq_true,decide_eq_true_eq,toNat_saturatingSub] at hcond
  exact ⟨hload,hcond.1.1.2,hcond.1.2,by omega⟩

theorem publishers_nodup (hdistinct : (infos.map AccountInfo.key).Nodup)
    (hplace : ∀ info∈infos,∀ s,countable fm clock k feed (b info.key).data=some s →
      (submissionPda h k s.publisher).1=info.key) :
    ((collect fm clock k feed ⟨b,b⟩ infos).map PriceSubmission.publisher).Nodup := by
  induction infos with
  | nil => exact nodup_nil
  | cons info infos ih =>
    rw [map_cons,nodup_cons] at hdistinct
    have htail := ih hdistinct.2 fun i hi => hplace i (mem_cons_of_mem _ hi)
    cases hcount : countable fm clock k feed (b info.key).data with
    | none => simpa only [collect,filterMap_cons,hcount] using htail
    | some s =>
      simp only [collect,filterMap_cons,hcount,map_cons,nodup_cons]
      refine ⟨fun hmem => ?_,htail⟩
      obtain ⟨s',hs',hsame⟩ := mem_map.mp hmem
      obtain ⟨info',hinfo',hcount'⟩ := mem_filterMap.mp hs'
      have hkey := hplace info mem_cons_self s hcount
      have hkey' := hplace info' (mem_cons_of_mem _ hinfo') s' hcount'
      rw [hsame,hkey] at hkey'
      exact hdistinct.1 (mem_map.mpr ⟨info',hinfo',hkey'.symm⟩)

end Votes

/-- One vote for each publisher: if the accounts passed to an aggregation are different and genuine,
the price is the median of submissions by different publishers of the feed, each of them the last
one of its publisher for the feed and at most 120 slots old. -/
theorem one_vote_per_publisher {h : Host} {fm : Formats} (hfm : fm.Decoded) {s t : Ledger}
    {tr : Trace Instruction} (h0 : Untouched h.programId s.bank)
    (hrun : Run ((program h fm).Step anyCall) s tr t) {c : Call Instruction} {b' : Bank}
    (hc : c.instruction=.aggregatePrices) (hgenuine : Genuine h fm t.bank c)
    (hx : (program h fm).execute c t.bank=.ok b') :
    ∃ k feed feed',∃ votes :
      List PriceSubmission,c.key? 1=some k ∧ fm.feed.load (t.bank k).data=some feed ∧
      fm.feed.load (b' k).data=some feed' ∧
      computeMedian (votes.map PriceSubmission.price)=some feed'.price ∧
      feed'.numSubmissions=BitVec.ofNat 32 votes.length ∧
      (votes.map PriceSubmission.publisher).Nodup ∧
      ∀ v∈votes,v.publisher∈feed.publishers.val ∧ latest v.publisher k tr=some (v.price,v.slot) ∧
        c.clock.slot.toNat≤v.slot.toNat+maxStalenessSlots.toNat := by
  have hall : Attributed h fm tr t := by
    refine hrun.traced (I := Attributed h fm) (fun k x hk => ?_) fun _ hall hs => hall.step hfm hs
    rw [show submissionAt h fm s.bank k=none from h0.cells hfm.submission k] at hk
    cases hk
  obtain ⟨k,feed,feed',hk,hfeed,hfeed',hprice,hcount⟩ := aggregatePrices_spec hfm hc hx
  have hgood :
    ∀ info∈c.accounts.drop 2,∀ v,countable fm c.clock k feed (t.bank info.key).data=some v →
      (submissionPda h k v.publisher).1=info.key ∧ v.publisher∈feed.publishers.val ∧
        latest v.publisher k tr=some (v.price,v.slot) ∧
        c.clock.slot.toNat≤v.slot.toNat+maxStalenessSlots.toNat := by
    intro info hinfo v hv
    obtain ⟨hload,rfl,hpublisher,hage⟩ := countable_eq_some hv
    obtain ⟨hpda,hlatest⟩ :=
      hall info.key v (cellAt_eq_some.mpr ⟨hgenuine.owned info hinfo v hload,hload⟩)
    exact ⟨hpda,hpublisher,hlatest,hage⟩
  refine ⟨k,feed,feed',_,hk,hfeed,hfeed',hprice,hcount,
    publishers_nodup hgenuine.distinct fun info hinfo v hv => (hgood info hinfo v hv).1,
    fun v hv => ?_⟩
  obtain ⟨info,hinfo,hcountable⟩ := mem_filterMap.mp hv
  exact (hgood info hinfo v hcountable).2

def sampleHost : Host where
  programId := 1#256
  findProgramAddress seeds _ :=
    if seeds=[submissionSeed,Pubkey.bytes 20#256,Pubkey.bytes 3#256] then (30#256,255#8)
    else if seeds=[submissionSeed,Pubkey.bytes 20#256,Pubkey.bytes 4#256] then
      (40#256,255#8)
    else (20#256,255#8)
  minimumBalance n := BitVec.ofNat 64 ((n+128)*6960)
  clockSysvar := 5#256

def forged : PriceSubmission := ⟨4#256,20#256,900#64,1#64,10#64,1000#64,255#8,true⟩

def genesis : Ledger where
  bank k :=
    if k=2#256 ∨ k=3#256 ∨ k=4#256 then ⟨1000000000#64,[],systemProgram⟩
    else if k=7#256 then ⟨1000000#64,2#8::submissionCodec.encode forged,9#256⟩
    else unused
  clock := ⟨0#64,0#64⟩

theorem genesis_untouched : Untouched sampleHost.programId genesis.bank := by
  refine untouched_of_foreign fun k => ?_
  unfold genesis
  dsimp only
  split_ifs <;> decide

def createCall : Call Instruction where
  clock := ⟨1#64,900#64⟩
  accounts := [⟨2#256,true,true⟩,⟨20#256,false,true⟩,systemInfo]
  instruction := .createFeed ⟨"",Codec.short_empty⟩ ⟨[3#256,4#256],by decide⟩

def updateCall (publisher submission : Pubkey) (price : U64) : Call Instruction where
  clock := ⟨10#64,1000#64⟩
  accounts := [⟨publisher,true,true⟩,⟨20#256,false,false⟩,⟨submission,false,true⟩,
    systemInfo]
  instruction := .updatePrice price 1#64

def aggregateCall (submissions : List Pubkey) : Call Instruction where
  clock := ⟨20#64,1010#64⟩
  accounts := ⟨2#256,true,true⟩::⟨20#256,false,true⟩::submissions.map fun k => ⟨k,false,false⟩
  instruction := .aggregatePrices

def aggregatedPrice (c : Call Instruction) (b : Bank) : Option (U64×U32) :=
  ((program sampleHost .values).execute c b).toOption.bind fun b' =>
    (Formats.values.feed.load (b' 20#256).data).map fun feed => (feed.price,feed.numSubmissions)

theorem aggregatedPrice_eq_some (hv : aggregatedPrice c b=some v) :
    ∃ b' feed,(program sampleHost .values).execute c b=.ok b' ∧
      Formats.values.feed.load (b' 20#256).data=some feed ∧ feed.price=v.1 ∧
      feed.numSubmissions=v.2 := by
  obtain ⟨b',hx,hv⟩ := bind_eq_some_iff.mp hv
  obtain ⟨feed,hfeed,rfl⟩ := map_eq_some_iff.mp hv
  exact ⟨b',feed,toOption_eq_some.mp hx,hfeed,rfl,rfl⟩

def genuine (b : Bank) (c : Call Instruction) : Bool :=
  decide ((c.accounts.drop 2).map AccountInfo.key).Nodup &&
    (c.accounts.drop 2).all fun info => decide ((b info.key).owner=sampleHost.programId)

theorem genuine_sound (hc : genuine b c=true) : Genuine sampleHost .values b c := by
  obtain ⟨hdistinct,howned⟩ := Bool.and_eq_true_iff.mp hc
  exact ⟨of_decide_eq_true hdistinct,fun info hinfo _ _ =>
    of_decide_eq_true (all_eq_true.mp howned info hinfo)⟩

theorem median_of_two_votes : ∃ tr t b' feed,
    Run ((program sampleHost .values).Step anyCall) genesis tr t ∧
      (program sampleHost .values).execute (aggregateCall [30#256,40#256]) t.bank=.ok b' ∧
      Formats.values.feed.load (b' 20#256).data=some feed ∧ feed.price=200#64 ∧
      ∃ k feed feed',∃ votes : List PriceSubmission,(aggregateCall [30#256,40#256]).key? 1=some k ∧
        Formats.values.feed.load (t.bank k).data=some feed ∧
        Formats.values.feed.load (b' k).data=some feed' ∧
        computeMedian (votes.map PriceSubmission.price)=some feed'.price ∧
        feed'.numSubmissions=BitVec.ofNat 32 votes.length ∧
        (votes.map PriceSubmission.publisher).Nodup ∧
        ∀ v∈votes,v.publisher∈feed.publishers.val ∧ latest v.publisher k tr=some (v.price,v.slot) ∧
          (aggregateCall
            [30#256,40#256]).clock.slot.toNat≤v.slot.toNat+maxStalenessSlots.toNat := by
  obtain ⟨⟨tr,t⟩,hhistory,hgenuine,hprice⟩ : ∃ x,(program sampleHost .values).history
        [createCall,updateCall 3#256 30#256 100#64, updateCall 4#256 40#256 300#64] genesis=some x ∧
      genuine x.2.bank (aggregateCall [30#256,40#256])=true ∧ aggregatedPrice (aggregateCall
        [30#256,40#256]) x.2.bank=some (200#64,2#32) := by decide +kernel
  obtain ⟨b',feed,hx,hfeed,hvalue,-⟩ := aggregatedPrice_eq_some hprice
  have hrun := history_anyCall hhistory
  exact ⟨tr,t,b',feed,hrun,hx,hfeed,hvalue,one_vote_per_publisher Formats.values_decoded
    genesis_untouched hrun rfl (genuine_sound hgenuine) hx⟩

/-- A foreign account, passed twice, sets the price that its owner likes, though `4` has never
submitted one. -/
theorem price_of_forged_votes : ∃ tr t b' feed feed',Untouched sampleHost.programId genesis.bank ∧
      Run ((program sampleHost .values).Step anyCall) genesis tr t ∧
      t.clock.before (aggregateCall [7#256,7#256]).clock ∧
      (program sampleHost .values).execute (aggregateCall [7#256,7#256]) t.bank=.ok b' ∧
      Formats.values.feed.load (t.bank 20#256).data=some feed ∧
      Formats.values.feed.load (b' 20#256).data=some feed' ∧ feed'.price=900#64 ∧
      feed'.numSubmissions=2#32 ∧
      ¬∃ votes :
        List PriceSubmission,computeMedian (votes.map PriceSubmission.price)=some feed'.price ∧
        (votes.map PriceSubmission.publisher).Nodup ∧
        ∀ v∈votes,v.publisher∈feed.publishers.val ∧
          latest v.publisher 20#256 tr=some (v.price,v.slot) := by
  obtain ⟨⟨tr,t⟩,hhistory,hpublishers,⟨hbefore,hthree,hfour⟩,hprice⟩ : ∃ x,(program sampleHost
        .values).history [createCall, updateCall 3#256 30#256 100#64] genesis=some x ∧
      ((Formats.values.feed.load (x.2.bank 20#256).data).map fun feed => feed.publishers.val)=some
        [3#256,4#256] ∧ (x.2.clock.before (aggregateCall [7#256,7#256]).clock ∧
      latest 3#256 20#256 x.1=some (100#64,10#64) ∧ latest 4#256 20#256 x.1=none) ∧
      aggregatedPrice (aggregateCall [7#256,7#256]) x.2.bank=some (900#64,2#32) := by decide +kernel
  obtain ⟨feed,hfeed,hpublishers⟩ := map_eq_some_iff.mp hpublishers
  obtain ⟨b',feed',hx,hfeed',hvalue,hcount⟩ := aggregatedPrice_eq_some hprice
  refine ⟨tr,t,b',feed,feed',genesis_untouched,
    history_anyCall hhistory,hbefore,hx,hfeed,hfeed',hvalue,hcount,?_⟩
  rintro ⟨votes,hmedian,hnodup,hall⟩
  -- only the other publisher has a vote, and it is worth 100
  have honly : ∀ v∈votes,v.publisher=3#256 ∧ v.price=100#64 := by
    intro v hv
    obtain ⟨hmem,hlatest⟩ := hall v hv
    rw [hpublishers] at hmem
    simp only [mem_cons,not_mem_nil,or_false] at hmem
    cases hmem with
    | inl hp =>
      rw [hp,hthree] at hlatest
      exact ⟨hp,(Prod.mk.inj (some.inj hlatest)).1.symm⟩
    | inr hp =>
      rw [hp,hfour] at hlatest
      cases hlatest
  rw [hvalue] at hmedian
  match votes with
  | [] => cases hmedian
  | [v] =>
    rw [map_singleton,(honly v mem_cons_self).2] at hmedian
    exact absurd hmedian (by decide +kernel)
  | v::w::_ =>
    have hv := (honly v mem_cons_self).1
    have hw := (honly w (mem_cons_of_mem _ mem_cons_self)).1
    rw [map_cons,map_cons,hv,hw,nodup_cons] at hnodup
    exact hnodup.1 mem_cons_self

end PrismChain.DefiOracle
