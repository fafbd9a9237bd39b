import PrismChain.Programs.SocialRecovery.Processor

namespace PrismChain.SocialRecovery

open FixedWidth Program

def Instruction.reconfigures : Instruction → Bool
  | .initiateGuardianReplacement _ _ => true
  | .finalizeGuardianReplacement => true
  | .cancelGuardianReplacement => true
  | .updateThreshold _ => true
  | _ => false

section Effects

variable (h : Host) (fm : Formats) (c : Call Instruction) (b b' : Bank)

structure Initialized (k : Pubkey) (cfg : RecoveryConfig) : Prop where
  place : ∃ owner,k=(configPda h owner).1
  live : cfg.isInitialized=true
  fresh : ∀ {cfg₀},fm.config.load (b k).data=some cfg₀ → cfg₀.isInitialized=false
  wrote : Wrote fm.config h.programId b b' k cfg

structure Initiated (kc kr guardian newOwner : Pubkey) (cfg : RecoveryConfig) : Prop where
  configKey : c.key? 0=some kc
  requestKey : c.key? 1=some kr
  guardianKey : c.key? 2=some guardian
  config : cellAt fm.config h.programId b kc=some cfg
  guards : guardian∈cfg.guardians.val
  place : kr=(requestPda h cfg.owner cfg.requestCount).1
  wrote : ∃ b₁ count,Wrote fm.config h.programId b b₁ kc {cfg with requestCount := count} ∧
    Wrote fm.request h.programId b₁ b' kr (newRequest cfg guardian newOwner c.clock.unixTimestamp
      (requestPda h cfg.owner cfg.requestCount).2)

structure Approved (kc kr guardian : Pubkey) (cfg : RecoveryConfig) (r : RecoveryRequest)
    (approvals : Vec Pubkey) : Prop where
  configKey : c.key? 0=some kc
  requestKey : c.key? 1=some kr
  guardianKey : c.key? 2=some guardian
  config : fm.config.load (b kc).data=some cfg
  guards : guardian∈cfg.guardians.val
  request : cellAt fm.request h.programId b kr=some r
  pending : r.status=.pending
  inTime : c.clock.unixTimestamp.toInt≤ r.createdAt.toInt+recoveryExpirySecs.toInt
  first : guardian∉r.approvals.val
  pushed : approvals.val=r.approvals.val++[guardian]
  wrote : Wrote fm.request h.programId b b' kr (endorsed r approvals c.clock.unixTimestamp)

structure Executed (kc kr : Pubkey) (cfg : RecoveryConfig) (r : RecoveryRequest) : Prop where
  configKey : c.key? 0=some kc
  requestKey : c.key? 1=some kr
  config : fm.config.load (b kc).data=some cfg
  request : cellAt fm.request h.programId b kr=some r
  approved : r.status=.approved
  delayed : r.approvedAt.toInt+recoveryDelaySecs.toInt≤c.clock.unixTimestamp.toInt
  wrote : ∃ b₁,Wrote fm.config h.programId b b₁ kc {cfg with owner := r.newOwner} ∧
    Wrote fm.request h.programId b₁ b' kr
      {r with status := .executed,executedAt := c.clock.unixTimestamp}

structure Cancelled (kr owner : Pubkey) (r : RecoveryRequest) : Prop where
  requestKey : c.key? 0=some kr
  ownerKey : c.key? 1=some owner
  request : cellAt fm.request h.programId b kr=some r
  ofOwner : r.accountOwner=owner
  unfinished : r.status=.pending ∨ r.status=.approved
  wrote : Wrote fm.request h.programId b b' kr {r with status := .cancelled}

structure Reconfigured (k : Pubkey) (cfg cfg' : RecoveryConfig) : Prop where
  configKey : c.key? 0=some k
  config : fm.config.load (b k).data=some cfg
  sameOwner : cfg'.owner=cfg.owner
  sameLife : cfg'.isInitialized=cfg.isInitialized
  wrote : Wrote fm.config h.programId b b' k cfg'

inductive Accepted : Prop
  | initialized {k : Pubkey} {cfg : RecoveryConfig} {guardians : Vec Pubkey}
      (hi : c.instruction=.initializeRecovery guardians) (u : Initialized h fm b b' k cfg)
  | initiated {kc kr guardian newOwner : Pubkey} {cfg : RecoveryConfig}
      (hi : c.instruction=.initiateRecovery newOwner)
      (u : Initiated h fm c b b' kc kr guardian newOwner cfg)
  | approved {kc kr guardian : Pubkey} {cfg : RecoveryConfig} {r : RecoveryRequest}
      {approvals : Vec Pubkey} (hi : c.instruction=.approveRecovery)
      (u : Approved h fm c b b' kc kr guardian cfg r approvals)
  | executed {kc kr : Pubkey} {cfg : RecoveryConfig} {r : RecoveryRequest}
      (hi : c.instruction=.executeRecovery) (u : Executed h fm c b b' kc kr cfg r)
  | cancelled {kr owner : Pubkey} {r : RecoveryRequest} (hi : c.instruction=.cancelRecovery)
      (u : Cancelled h fm c b b' kr owner r)
  | reconfigured {k : Pubkey} {cfg cfg' : RecoveryConfig}
      (hi : c.instruction.reconfigures=true) (u : Reconfigured h fm c b b' k cfg cfg')

end Effects

section Handlers

variable {h : Host} {fm : Formats} {accounts : List AccountInfo} {f : Frame}

theorem loadConfig_eq_ok :
    loadConfig fm f k=.ok cfg ↔ fm.config.load (f.view k).data=some cfg := okOr_eq_ok

theorem loadRequest_eq_ok :
    loadRequest fm f k=.ok r ↔ fm.request.load (f.view k).data=some r := okOr_eq_ok

theorem endorsed_approvals (r : RecoveryRequest) (approvals : Vec Pubkey) (now : I64) :
    (endorsed r approvals now).approvals=approvals := by
  unfold endorsed
  split_ifs <;> rfl

variable (hsync : Synced h.programId accounts f)
include hsync

theorem initialize_spec (hp : initializeRecovery h fm guardians accounts ⟨b,b⟩=.ok f) :
    ∃ k cfg,Initialized h fm b f.view k cfg := by
  unfold initializeRecovery at hp
  split at hp <;> simp only [steps_ok] at hp
  rename_i configInfo _ _ _ _
  obtain ⟨-,-,-,-,-,-,-,-,-,-,-,hplace,-,hfresh,hsave⟩ := hp
  refine ⟨configInfo.key,_,⟨_,hplace⟩,rfl,?_,wrote_of_save hsave hsync (by simp)⟩
  intro cfg0 hload
  exact Bool.eq_false_iff.mpr fun hlive => hfresh ⟨cfg0,hload,hlive⟩

theorem initiate_spec (hfm : fm.Decoded)
    (hp : initiateRecovery h fm clock newOwner accounts ⟨b,b⟩=.ok f) :
    ∃ kc kr guardian cfg,Initiated h fm ⟨clock,accounts,.initiateRecovery newOwner⟩ b f.view
      kc kr guardian newOwner cfg := by
  unfold initiateRecovery at hp
  split at hp <;> simp only [steps_ok,loadConfig_eq_ok] at hp
  rename_i configInfo requestInfo guardianInfo _ _ _ _
  obtain ⟨-,-,cfg,hcfg,-,-,-,hguard,-,-,count,hcount,-,hplace,_,hfirst,hsecond⟩ := hp
  obtain ⟨b1,hw1,hw2⟩ := wrote_of_saves_apart hcfg hfm.apart hfm.request hfirst hsecond hsync
    (by simp) (by simp)
  -- the counter has moved, so the config is an account of the program
  have hne : {cfg with requestCount := count}≠cfg := by
    intro heq
    have hsame : count=cfg.requestCount := congrArg RecoveryConfig.requestCount heq
    have hsum := checkedAdd_eq_some.mp hcount
    rw [hsame] at hsum
    simp at hsum
  have howner := hw1.owned_of_ne hfm.config hcfg hne
  exact ⟨_,_,_,cfg,rfl,rfl,rfl,cellAt_eq_some.mpr ⟨howner,hcfg⟩,by simpa [isGuardian] using hguard,
    hplace,b1,count,hw1,hw2⟩

theorem approve_spec (hfm : fm.Decoded) (hp : approveRecovery h fm clock accounts ⟨b,b⟩=.ok f) :
    ∃ kc kr guardian cfg r approvals,Approved h fm ⟨clock,accounts,.approveRecovery⟩ b f.view
      kc kr guardian cfg r approvals := by
  unfold approveRecovery at hp
  split at hp <;> simp only [steps_ok,loadConfig_eq_ok,loadRequest_eq_ok] at hp
  rename_i configInfo requestInfo guardianInfo _ _
  obtain ⟨-,-,cfg,hcfg,-,hguard,r,hr,-,hpending,-,-,_,hexpiry,hrest⟩ := hp
  split at hrest
  case isTrue =>
    simp only [bind_eq_ok] at hrest
    obtain ⟨-,-,hrest⟩ := hrest
    cases hrest
  case isFalse hintime =>
    simp only [steps_ok] at hrest
    obtain ⟨-,hfirst,approvals,hpush,hsave⟩ := hrest
    have hpushed := Vec.push_eq_some.mp hpush
    have hw := wrote_of_save hsave hsync (by simp)
    have hne : endorsed r approvals clock.unixTimestamp≠r := by
      intro heq
      have happrovals := congrArg RecoveryRequest.approvals heq
      rw [endorsed_approvals] at happrovals
      rw [happrovals] at hpushed
      simp at hpushed
    rw [checkedAddSigned_eq_some.mp hexpiry] at hintime
    exact ⟨_,_,_,cfg,r,approvals,rfl,rfl,rfl,hcfg,by simpa [isGuardian] using hguard,
      cellAt_eq_some.mpr ⟨hw.owned_of_ne hfm.request hr hne,hr⟩,hpending,not_lt.mp hintime,
      hfirst,hpushed,hw⟩

theorem execute_recovery_spec (hfm : fm.Decoded)
    (hp : executeRecovery h fm clock accounts ⟨b,b⟩=.ok f) :
    ∃ kc kr cfg r,Executed h fm ⟨clock,accounts,.executeRecovery⟩ b f.view kc kr cfg r := by
  unfold executeRecovery at hp
  split at hp <;> simp only [steps_ok,loadConfig_eq_ok,loadRequest_eq_ok] at hp
  rename_i configInfo requestInfo _ _ _
  obtain ⟨-,-,cfg,hcfg,r,hr,-,_,-,_,-,_,-,_,-,-,_,hafter,-,hdelay,f1,hfirst,hsecond⟩ := hp
  have happroved : r.status=.approved := by
    cases hstatus : r.status <;> simp_all
  obtain ⟨b1,hw1,hw2⟩ := wrote_of_saves_apart hcfg hfm.apart hfm.request hfirst hsecond hsync
    (by simp) (by simp)
  have hkeys : requestInfo.key≠configInfo.key := by
    intro heq
    rw [heq] at hr
    exact hfm.apart hcfg hr
  have hr1 : fm.request.load (b1 requestInfo.key).data=some r := by
    rw [hw1.other hkeys]
    exact hr
  have hne : {r with status := .executed,executedAt := clock.unixTimestamp}≠r := by
    intro heq
    have hstatus := congrArg RecoveryRequest.status heq
    rw [happroved] at hstatus
    cases hstatus
  have howner := hw2.owned_of_ne hfm.request hr1 hne
  rw [hw1.owner] at howner
  rw [checkedAddSigned_eq_some.mp hafter] at hdelay
  exact ⟨_,_,cfg,r,rfl,rfl,hcfg,cellAt_eq_some.mpr ⟨howner,hr⟩,happroved,hdelay,b1,hw1,hw2⟩

theorem cancel_spec (hfm : fm.Decoded) (hp : cancelRecovery fm accounts ⟨b,b⟩=.ok f) :
    ∃ kr owner r,Cancelled h fm ⟨clock,accounts,.cancelRecovery⟩ b f.view kr owner r := by
  unfold cancelRecovery at hp
  split at hp <;> simp only [steps_ok,loadRequest_eq_ok] at hp
  rename_i requestInfo ownerInfo _
  obtain ⟨-,-,r,hr,-,howner,-,-,-,hopen,hsave⟩ := hp
  have hw := wrote_of_save hsave hsync (by simp)
  have hne : {r with status := .cancelled}≠r := by
    intro heq
    have hstatus := congrArg RecoveryRequest.status heq
    obtain h | h := hopen <;> rw [h] at hstatus <;> cases hstatus
  exact ⟨_,_,r,rfl,rfl,cellAt_eq_some.mpr ⟨hw.owned_of_ne hfm.request hr hne,hr⟩,howner,hopen,hw⟩

theorem own_spec (hp : onOwnConfig fm change configInfo ownerInfo ⟨b,b⟩=.ok f)
    (hconfig : accounts[0]?=some configInfo) (hchange : ∀ {cfg cfg'},change cfg=.ok cfg' →
      cfg'.owner=cfg.owner ∧ cfg'.isInitialized=cfg.isInitialized) :
    ∃ k cfg cfg',Reconfigured h fm ⟨clock,accounts,i⟩ b f.view k cfg cfg' := by
  simp only [onOwnConfig,steps_ok,loadConfig_eq_ok] at hp
  obtain ⟨-,-,cfg,hcfg,-,-,cfg',hcfg',hsave⟩ := hp
  have hkey : (Call.mk clock accounts i).key? 0=some configInfo.key := by
    rw [Call.key?,hconfig]
    rfl
  exact ⟨configInfo.key,cfg,cfg',hkey,hcfg,(hchange hcfg').1,(hchange hcfg').2,
    wrote_of_save hsave hsync (Call.key_mem hkey)⟩

theorem reconfigure_spec {i : Instruction} (hi : i.reconfigures=true)
    (hp : processInstruction h fm clock accounts i ⟨b,b⟩=.ok f) :
    ∃ k cfg cfg',Reconfigured h fm ⟨clock,accounts,i⟩ b f.view k cfg cfg' := by
  cases i with
  | initiateGuardianReplacement =>
    simp only [processInstruction,initiateGuardianReplacement] at hp
    split at hp
    case h_2 => cases hp
    rename_i configInfo ownerInfo _ _
    refine own_spec hsync hp rfl fun {cfg cfg'} hchange => ?_
    simp only [steps_ok] at hchange
    obtain ⟨-,-,-,-,-,-,-,-,-,-,rfl⟩ := hchange
    exact ⟨rfl,rfl⟩
  | finalizeGuardianReplacement =>
    simp only [processInstruction,finalizeGuardianReplacement] at hp
    split at hp
    case h_2 => cases hp
    rename_i configInfo ownerInfo _ _
    refine own_spec hsync hp rfl fun {cfg cfg'} hchange => ?_
    simp only [steps_ok] at hchange
    obtain ⟨_,-,-,-,_,-,-,-,_,-,rfl⟩ := hchange
    exact ⟨rfl,rfl⟩
  | cancelGuardianReplacement =>
    simp only [processInstruction,cancelGuardianReplacement] at hp
    split at hp
    case h_2 => cases hp
    rename_i configInfo ownerInfo _
    refine own_spec hsync hp rfl fun {cfg cfg'} hchange => ?_
    simp only [steps_ok] at hchange
    obtain ⟨_,-,rfl⟩ := hchange
    exact ⟨rfl,rfl⟩
  | updateThreshold =>
    simp only [processInstruction,updateThreshold] at hp
    split at hp
    case h_2 => cases hp
    rename_i configInfo ownerInfo _
    refine own_spec hsync hp rfl fun {cfg cfg'} hchange => ?_
    simp only [steps_ok] at hchange
    obtain ⟨-,-,-,-,rfl⟩ := hchange
    exact ⟨rfl,rfl⟩
  | initializeRecovery => cases hi
  | initiateRecovery => cases hi
  | approveRecovery => cases hi
  | executeRecovery => cases hi
  | cancelRecovery => cases hi

end Handlers

theorem execute_spec {fm : Formats} (hfm : fm.Decoded) (hx : (program h fm).execute c b=.ok b') :
    Accepted h fm c b b' := by
  obtain ⟨f,hp,hsync,rfl⟩ := execute_eq_ok.mp hx
  obtain ⟨clock,accounts,i⟩ := c
  change processInstruction h fm clock accounts i ⟨b,b⟩=.ok f at hp
  cases i with
  | initializeRecovery =>
    obtain ⟨_,_,u⟩ := initialize_spec hsync hp
    exact .initialized rfl u
  | initiateRecovery =>
    obtain ⟨_,_,_,_,u⟩ := initiate_spec hsync hfm hp
    exact .initiated rfl u
  | approveRecovery =>
    obtain ⟨_,_,_,_,_,_,u⟩ := approve_spec hsync hfm hp
    exact .approved rfl u
  | executeRecovery =>
    obtain ⟨_,_,_,_,u⟩ := execute_recovery_spec hsync hfm hp
    exact .executed rfl u
  | cancelRecovery =>
    obtain ⟨_,_,_,u⟩ := cancel_spec hsync hfm hp
    exact .cancelled rfl u
  | _ =>
    obtain ⟨_,_,_,u⟩ := reconfigure_spec hsync rfl hp
    exact .reconfigured rfl u

open Codec in
theorem request_length (r : RecoveryRequest) :
    (requestCodec.encode r).length=136+32*r.approvals.val.length := by
  simp [requestCodec,statusCodec,vec_length pubkey_length]
  omega

/-- One more approval never fits in the data that the request was read from. -/
theorem approve_in_place : approveRecovery h .borsh clock accounts f≠.ok f' := by
  intro hp
  unfold approveRecovery at hp
  split at hp <;> simp only [steps_ok,loadConfig_eq_ok,loadRequest_eq_ok] at hp
  obtain ⟨-,-,-,-,-,-,r,hr,-,-,-,-,_,-,hrest⟩ := hp
  split at hrest
  case isTrue =>
    simp only [bind_eq_ok] at hrest
    obtain ⟨-,-,hrest⟩ := hrest
    cases hrest
  case isFalse =>
    simp only [steps_ok] at hrest
    obtain ⟨-,-,_,hpush,hsave⟩ := hrest
    obtain ⟨_,hstore,-⟩ := Frame.save_eq_ok.mp hsave
    have hle := Storage.inPlace_le hr (.inl hstore)
    simp [request_length,endorsed_approvals,Vec.push_eq_some.mp hpush] at hle

theorem recovery_never_approved :
    (program h .borsh).execute ⟨clock,accounts,.approveRecovery⟩ b≠.ok b' := by
  intro hx
  obtain ⟨f,hp,-,rfl⟩ := execute_eq_ok.mp hx
  exact approve_in_place hp

def Passes (c : Call Instruction) (k : Pubkey) : Prop :=
  c.key? 1=some k →
    c.instruction≠.approveRecovery ∧ ∀ newOwner,c.instruction≠.initiateRecovery newOwner

inductive Next (h : Host) (fm : Formats) (c : Call Instruction) (b b' : Bank) (k : Pubkey)
    (r : RecoveryRequest) : RecoveryRequest → Prop
  | same (hpass : Passes c k) : Next h fm c b b' k r r
  | approved {kc guardian : Pubkey} {cfg : RecoveryConfig} {approvals : Vec Pubkey}
      (hi : c.instruction=.approveRecovery)
      (u : Approved h fm c b b' kc k guardian cfg r approvals) :
      Next h fm c b b' k r (endorsed r approvals c.clock.unixTimestamp)
  | executed {kc : Pubkey} {cfg : RecoveryConfig} (hi : c.instruction=.executeRecovery)
      (u : Executed h fm c b b' kc k cfg r) :
      Next h fm c b b' k r {r with status := .executed,executedAt := c.clock.unixTimestamp}
  | cancelled {owner : Pubkey} (hi : c.instruction=.cancelRecovery)
      (u : Cancelled h fm c b b' k owner r) : Next h fm c b b' k r {r with status := .cancelled}

namespace Accepted

theorem owner_kept (u : Accepted h fm c b b') : (b' k).owner=(b k).owner := by
  cases u with
  | initialized _ u => exact u.wrote.owner k
  | initiated _ u =>
    obtain ⟨b1,_,hw1,hw2⟩ := u.wrote
    exact (hw2.owner k).trans (hw1.owner k)
  | approved _ u => exact u.wrote.owner k
  | executed _ u =>
    obtain ⟨b1,hw1,hw2⟩ := u.wrote
    exact (hw2.owner k).trans (hw1.owner k)
  | cancelled _ u => exact u.wrote.owner k
  | reconfigured _ u => exact u.wrote.owner k

theorem request_before (u : Accepted h fm c b b') (hfm : fm.Decoded)
    (hr' : cellAt fm.request h.programId b' k=some r') :
    (∃ kc guardian newOwner cfg,c.instruction=.initiateRecovery newOwner ∧
      Initiated h fm c b b' kc k guardian newOwner cfg ∧
      r'=newRequest cfg guardian newOwner c.clock.unixTimestamp
        (requestPda h cfg.owner cfg.requestCount).2) ∨
    ∃ r,cellAt fm.request h.programId b k=some r ∧ Next h fm c b b' k r r' := by
  -- an instruction on another request passes this one by
  have helsewhere {j : Pubkey} (hkey : c.key? 1=some j) (hne : k≠j) : Passes c k :=
    fun hk => absurd (Option.some.inj (hk.symm.trans hkey)) hne
  cases u with
  | initialized hi u =>
    refine .inr ⟨r',u.wrote.other_kind_before hfm.config hfm.apart hr',.same fun _ => ?_⟩
    simp [hi]
  | initiated hi u =>
    obtain ⟨b1,_,hw1,hw2⟩ := u.wrote
    obtain ⟨rfl,-,rfl⟩ | ⟨hne,hold⟩ := hw2.cell_before hr'
    · exact .inl ⟨_,_,_,_,hi,u,rfl⟩
    · exact .inr ⟨r',hw1.other_kind_before hfm.config hfm.apart hold,
        .same (helsewhere u.requestKey hne)⟩
  | approved hi u =>
    obtain ⟨rfl,-,rfl⟩ | ⟨hne,hold⟩ := u.wrote.cell_before hr'
    · exact .inr ⟨_,u.request,.approved hi u⟩
    · exact .inr ⟨r',hold,.same (helsewhere u.requestKey hne)⟩
  | executed hi u =>
    obtain ⟨b1,hw1,hw2⟩ := u.wrote
    obtain ⟨rfl,-,rfl⟩ | ⟨hne,hold⟩ := hw2.cell_before hr'
    · exact .inr ⟨_,u.request,.executed hi u⟩
    · exact .inr
        ⟨r',hw1.other_kind_before hfm.config hfm.apart hold,.same (helsewhere u.requestKey hne)⟩
  | cancelled hi u =>
    obtain ⟨rfl,-,rfl⟩ | ⟨-,hold⟩ := u.wrote.cell_before hr'
    · exact .inr ⟨_,u.request,.cancelled hi u⟩
    · exact .inr ⟨r',hold,.same fun _ => by simp [hi]⟩
  | reconfigured hi u =>
    refine .inr ⟨r',u.wrote.other_kind_before hfm.config hfm.apart hr',.same fun _ => ?_⟩
    constructor
    · intro h
      rw [h] at hi
      cases hi
    · intro newOwner h
      rw [h] at hi
      cases hi

theorem config_before (u : Accepted h fm c b b') (hfm : fm.Decoded)
    (hcfg' : cellAt fm.config h.programId b' k=some cfg') : Initialized h fm b b' k cfg' ∨
    ∃ cfg,cellAt fm.config h.programId b k=some cfg ∧ cfg'.isInitialized=cfg.isInitialized ∧
      (cfg'.owner=cfg.owner ∨ ∃ kr r,c.instruction=.executeRecovery ∧
        Executed h fm c b b' k kr cfg r ∧ cfg'.owner=r.newOwner) := by
  have hap : fm.request.Apart fm.config := Storage.Apart.symm hfm.apart
  cases u with
  | initialized _ u =>
    obtain ⟨rfl,-,rfl⟩ | ⟨-,hold⟩ := u.wrote.cell_before hcfg'
    · exact .inl u
    · exact .inr ⟨cfg',hold,rfl,.inl rfl⟩
  | initiated _ u =>
    obtain ⟨b1,_,hw1,hw2⟩ := u.wrote
    obtain ⟨rfl,-,rfl⟩ | ⟨-,hold⟩ :=
      hw1.cell_before (hw2.other_kind_before hfm.request hap hcfg')
    · exact .inr ⟨_,u.config,rfl,.inl rfl⟩
    · exact .inr ⟨cfg',hold,rfl,.inl rfl⟩
  | approved _ u =>
    exact .inr ⟨cfg',u.wrote.other_kind_before hfm.request hap hcfg',rfl,.inl rfl⟩
  | executed hi u =>
    obtain ⟨b1,hw1,hw2⟩ := u.wrote
    obtain ⟨rfl,howner,rfl⟩ | ⟨-,hold⟩ :=
      hw1.cell_before (hw2.other_kind_before hfm.request hap hcfg')
    · exact .inr ⟨_,cellAt_eq_some.mpr ⟨howner,u.config⟩,rfl,.inr ⟨_,_,hi,u,rfl⟩⟩
    · exact .inr ⟨cfg',hold,rfl,.inl rfl⟩
  | cancelled _ u =>
    exact .inr ⟨cfg',u.wrote.other_kind_before hfm.request hap hcfg',rfl,.inl rfl⟩
  | reconfigured _ u =>
    obtain ⟨rfl,howner,rfl⟩ | ⟨-,hold⟩ := u.wrote.cell_before hcfg'
    · exact .inr ⟨_,cellAt_eq_some.mpr ⟨howner,u.config⟩,u.sameLife,.inl u.sameOwner⟩
    · exact .inr ⟨cfg',hold,rfl,.inl rfl⟩

end Accepted
end PrismChain.SocialRecovery
