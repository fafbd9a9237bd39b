import PrismChain.Framework.Allocation
import PrismChain.Programs.SocialRecovery.Authorisation

namespace PrismChain.SocialRecovery

open List Option Program Storage

/-- Some continuation of the history, with matching pairs, executes the request `kr` as it is now on
the config `kc`. -/
def CouldExecute (h : Host) (fm : Formats) (tr : Trace Instruction) (t : Ledger)
    (kc kr : Pubkey) : Prop :=
  ∃ tr' t' c u,Run ((program h fm).Step anyCall) t tr' t' ∧ Undisturbed kr tr' ∧
    (program h fm).Step anyCall t' (.call c) u ∧ c.instruction=.executeRecovery ∧
    c.key? 0=some kc ∧ c.key? 1=some kr ∧ Matching h fm (tr++tr'++[⟨t',.call c,u⟩])

def cancelCall (clock : Clock) (request owner : Pubkey) : Call Instruction :=
  ⟨clock,[⟨request,false,true⟩,⟨owner,true,false⟩],.cancelRecovery⟩

section Bytes

variable {d d' : List Byte} {cfg : RecoveryConfig} {r : RecoveryRequest}

open Codec in
theorem replacement_length (x : Option GuardianReplacement) :
    (replacementCodec.option.encode x).length=1+x.elim 0 fun _ => 73 := by
  cases x <;> simp [option,replacementCodec,replacementStatusCodec]

open Codec in
theorem config_length (cfg : RecoveryConfig) : (configCodec.encode cfg).length=
    48+32*cfg.guardians.val.length+cfg.pendingReplacement.elim 0 fun _ => 73 := by
  simp [configCodec,replacement_length,vec_length pubkey_length]
  omega

/-- The lengths of configs and requests differ modulo 32. -/
theorem config_not_request (hcfg : configCodec.tryFromSlice d=some cfg)
    (hlen : d'.length=d.length) : requestCodec.tryFromSlice d'≠some r := by
  intro hr
  rw [requestCodec.tryFromSlice_eq_some.mp hr,configCodec.tryFromSlice_eq_some.mp hcfg,
    request_length,config_length] at hlen
  cases hp :
    cfg.pendingReplacement <;> rw [hp] at hlen <;> simp only [elim_none,elim_some] at hlen <;>
    omega

theorem zeros_unapproved (hzero : ∀ x∈d,x=0#8) (hr : requestCodec.tryFromSlice d=some r) :
    r.status≠.approved := by
  intro hstatus
  have hone : 1#8∈requestCodec.encode r := by
    have htag : statusCodec.encode r.status=[1#8] := by
      rw [hstatus]
      rfl
    change 1#8∈Codec.bool.encode _++(pubkeyCodec.encode _++(Codec.u64.encode _++
      (pubkeyCodec.encode _++(pubkeyCodec.encode _++(statusCodec.encode r.status++_)))))
    simp [htag]
  rw [← requestCodec.tryFromSlice_eq_some.mp hr] at hone
  cases hzero _ hone

end Bytes

/-- Outside of the addresses of configs, no account of the program is read as an approved
request. -/
def Unapproved (h : Host) (b : Bank) : Prop :=
  ∀ k,(∀ owner,k≠(configPda h owner).1) → (b k).owner=h.programId →
    ∀ r,requestCodec.tryFromSlice (b k).data=some r → r.status≠.approved

/-- The account `k` keeps its owner, and its data or whatever is read from it is not an approved
request. -/
def Spares (k : Pubkey) (b b' : Bank) : Prop :=
  (b' k).owner=(b k).owner ∧ ((b' k).data=(b k).data ∨
    ∀ r,requestCodec.tryFromSlice (b' k).data=some r → r.status≠.approved)

section Writes

variable {k : Pubkey} {b b' b'' : Bank} {f g : Frame}

theorem Spares.trans (hs : Spares k b b') (hs' : Spares k b' b'') : Spares k b b'' := by
  refine ⟨hs'.1.trans hs.1,?_⟩
  obtain hsame | hnew := hs'.2
  · rw [hsame]
    exact hs.2
  · exact .inr hnew

theorem save_spares (hsave : f.save s a j=.ok g) (hnew : ∀ d,s.store a (f.view j).data=some d →
    ∀ r,requestCodec.tryFromSlice d=some r → r.status≠.approved) : Spares k f.view g.view := by
  obtain ⟨d,hd,rfl⟩ := Frame.save_eq_ok.mp hsave
  refine ⟨Bank.setData_owner _ _ _ _,?_⟩
  by_cases hk : k=j
  · subst hk
    rw [Bank.setData_same]
    exact .inr (hnew d hd)
  · exact .inl (congrArg Account.data (Function.update_of_ne hk _ _))

theorem save_config_spares (hcfg : Formats.borsh.config.load (f.view j).data=some cfg)
    (hsave : f.save Formats.borsh.config cfg' j=.ok g) : Spares k f.view g.view := by
  refine save_spares hsave fun d hd r hr => absurd hr (config_not_request hcfg ?_)
  exact Codec.writeTo_length hd

theorem save_request_spares (hsave : f.save Formats.borsh.request r j=.ok g)
    (hstatus : r.status≠.approved) : Spares k f.view g.view := by
  refine save_spares hsave fun d hd r' hr' => ?_
  rw [Formats.borsh.request.load_store hd hr']
  exact hstatus

theorem own_spares (hp : onOwnConfig .borsh change configInfo ownerInfo f=.ok g) :
    Spares k f.view g.view := by
  simp only [onOwnConfig,steps_ok,loadConfig_eq_ok] at hp
  obtain ⟨-,-,_,hcfg,-,-,_,-,hsave⟩ := hp
  exact save_config_spares hcfg hsave

/-- No instruction leaves an approved request, except where it writes a new config. -/
theorem process_spares (hk : ∀ owner,k≠(configPda h owner).1)
    (hp : processInstruction h .borsh clock accounts i f=.ok g) : Spares k f.view g.view := by
  cases i with
  | initializeRecovery =>
    simp only [processInstruction,initializeRecovery] at hp
    split at hp <;> simp only [steps_ok] at hp
    obtain ⟨-,-,-,-,-,-,-,-,-,-,-,hplace,-,-,hsave⟩ := hp
    obtain ⟨d,-,rfl⟩ := Frame.save_eq_ok.mp hsave
    rw [hplace]
    exact ⟨Bank.setData_owner _ _ _ _,
      .inl (congrArg Account.data (Function.update_of_ne (hk _) _ _))⟩
  | initiateRecovery =>
    simp only [processInstruction,initiateRecovery] at hp
    split at hp <;> simp only [steps_ok,loadConfig_eq_ok] at hp
    obtain ⟨-,-,_,hcfg,-,-,-,-,-,-,_,-,-,-,_,hfirst,hsecond⟩ := hp
    exact (save_config_spares hcfg hfirst).trans (save_request_spares hsecond (by simp [newRequest]))
  | approveRecovery => exact absurd hp approve_in_place
  | executeRecovery =>
    simp only [processInstruction,executeRecovery] at hp
    split at hp <;> simp only [steps_ok,loadConfig_eq_ok] at hp
    obtain ⟨-,-,_,hcfg,_,-,-,-,-,-,-,-,-,-,-,-,_,-,-,-,_,hfirst,hsecond⟩ := hp
    exact (save_config_spares hcfg hfirst).trans (save_request_spares hsecond (by simp))
  | cancelRecovery =>
    simp only [processInstruction,cancelRecovery] at hp
    split at hp <;> simp only [steps_ok] at hp
    obtain ⟨-,-,_,-,-,-,-,-,-,-,hsave⟩ := hp
    exact save_request_spares hsave (by simp)
  | _ =>
    simp only [processInstruction,initiateGuardianReplacement,finalizeGuardianReplacement,
      cancelGuardianReplacement,updateThreshold] at hp
    split at hp
    · exact own_spares hp
    · cases hp

end Writes

section Runs

variable {h : Host} {s t u : Ledger} {c : Call Instruction}

theorem Unapproved.step (hb : Unapproved h s.bank) (hstep : (program h .borsh).Step ok s a t) :
    Unapproved h t.bank := by
  intro k hk howner r hr
  cases hstep with
  | call _ _ hx =>
    obtain ⟨f,hp,-,rfl⟩ := execute_eq_ok.mp hx
    obtain ⟨hsame,hdata | hnew⟩ := process_spares hk hp
    · rw [hdata] at hr
      exact hb k hk (hsame.symm.trans howner) r hr
    · exact hnew r hr
  | outside _ hout =>
    by_cases hbefore : (s.bank k).owner=h.programId
    · obtain ⟨-,hdata,-⟩ := (hout k).1 hbefore
      rw [hdata] at hr
      exact hb k hk hbefore r hr
    · exact zeros_unapproved ((hout k).2 hbefore howner) hr

theorem unapproved_run (h0 : Untouched h.programId s.bank)
    (hrun : Run ((program h .borsh).Step ok) s tr t) : Unapproved h t.bank :=
  hrun.invariant (I := fun t => Unapproved h t.bank)
    (fun k _ howner _ hr => zeros_unapproved (h0 k howner) hr) fun hb hstep => hb.step hstep

/-- A request that the history knows of was made at the address of a request. -/
theorem dossier_place (hrun : Run ((program h .borsh).Step ok) s tr t)
    (hd : dossier h .borsh k tr=some d) : ∃ owner i,k=(requestPda h owner i).1 := by
  induction hrun generalizing d with
  | start => cases hd
  | @next tr t u a hrun hstep ih =>
    cases hstep with
    | outside =>
      rw [dossier_outside] at hd
      exact ih hd
    | @call c _ _ _ hx =>
      by_cases hpass : Passes c k
      · rw [dossier_passed hpass] at hd
        exact ih hd
      obtain ⟨hkey,hmade⟩ := Classical.not_imp.mp hpass
      obtain ⟨f,hp,-,rfl⟩ := execute_eq_ok.mp hx
      obtain ⟨clock,accounts,i⟩ := c
      cases i with
      | initiateRecovery newOwner =>
        change initiateRecovery h .borsh clock newOwner accounts _=.ok f at hp
        unfold initiateRecovery at hp
        split at hp <;> simp only [steps_ok] at hp
        obtain ⟨-,-,_,-,-,-,-,-,-,-,_,-,-,hplace,-⟩ := hp
        exact ⟨_,_,(some.inj hkey).symm.trans hplace⟩
      | approveRecovery => exact absurd hp approve_in_place
      | _ => exact absurd ⟨by simp,by simp⟩ hmade

/-- An execution takes an approved request of the program: it has to write the request back. -/
theorem execution_refused (hb : Unapproved h b) (hi : c.instruction=.executeRecovery)
    (hkr : c.key? 1=some kr) (hplace : ∀ owner,kr≠(configPda h owner).1) :
    (program h .borsh).execute c b≠.ok b' := by
  intro hx
  obtain ⟨f,hp,hsync,rfl⟩ := execute_eq_ok.mp hx
  obtain ⟨clock,accounts,i⟩ := c
  obtain rfl : i=.executeRecovery := hi
  change executeRecovery h .borsh clock accounts ⟨b,b⟩=.ok f at hp
  unfold executeRecovery at hp
  split at hp
  case h_2 => cases hp
  rename_i configInfo requestInfo _ _ _
  obtain rfl : requestInfo.key=kr := some.inj hkr
  simp only [steps_ok,loadRequest_eq_ok] at hp
  obtain ⟨-,-,cfg,-,r,hr,-,_,-,_,-,_,-,_,-,-,_,-,-,-,f1,hfirst,hsecond⟩ := hp
  have happroved : r.status=.approved := by
    cases hstatus : r.status <;> simp_all
  obtain ⟨d1,-,rfl⟩ := Frame.save_eq_ok.mp hfirst
  obtain ⟨d,hd,rfl⟩ := Frame.save_eq_ok.mp hsecond
  obtain howner | hsame := owned_of_sync (k := requestInfo.key) hsync (by simp)
  · exact hb _ hplace howner r hr happroved
  · -- then the request would be read as before, and it was written as executed
    rw [Bank.setData_same] at hsame
    rw [← hsame] at hr
    have heq := congrArg RecoveryRequest.status (Formats.borsh.request.load_store hd hr)
    rw [happroved] at heq
    cases heq

/-- In a history with matching pairs no execution is accepted. -/
theorem no_execution (hsep : Separate h) (h0 : Untouched h.programId s.bank)
    (hrun : Run ((program h .borsh).Step ok) s tr t)
    (hstep : (program h .borsh).Step ok t (.call c) u) (hi : c.instruction=.executeRecovery)
    (hm : Matching h .borsh (tr++[⟨t,.call c,u⟩])) : False := by
  cases hstep with
  | call _ _ hx =>
    cases hkr : c.key? 1 with
    | none =>
      obtain ⟨f,hp,-,rfl⟩ := execute_eq_ok.mp hx
      obtain ⟨clock,accounts,i⟩ := c
      obtain rfl : i=.executeRecovery := hi
      change executeRecovery h .borsh clock accounts ⟨t.bank,t.bank⟩=.ok f at hp
      unfold executeRecovery at hp
      split at hp
      · cases hkr
      · cases hp
    | some kr =>
      obtain ⟨d,hd,-⟩ := hm.last (.inr hi) kr hkr
      obtain ⟨o,i,rfl⟩ := dossier_place hrun hd
      exact execution_refused (unapproved_run h0 hrun) hi hkr
        (fun owner => (hsep owner o i).symm) hx

end Runs

/-- Over the bytes as the program reads and writes them, an approval never fits in the account of a
request. With matching pairs no recovery is executed, so that none outlives an owner and there is
none that the owner of a config would have to cancel and could not. -/
theorem requests_end_with_owner {h : Host} (hsep : Separate h) {s t : Ledger}
    {tr : Trace Instruction} (h0 : Untouched h.programId s.bank)
    (hrun : Run ((program h .borsh).Step anyCall) s tr t) (hmatch : Matching h .borsh tr)
    (kc : Pubkey) :
    (∀ x∈tr,∀ c,x.label=.call c → c.instruction≠.executeRecovery) ∧
    (∀ c u tr' v c' w kr,(program h .borsh).Step anyCall t (.call c) u →
      c.instruction=.executeRecovery → c.key? 0=some kc →
      Run ((program h .borsh).Step anyCall) u tr' v →
      (program h .borsh).Step anyCall v (.call c') w → c'.instruction=.executeRecovery →
      c'.key? 0=some kc → c'.key? 1=some kr →
      Matching h .borsh (tr++[⟨t,.call c,u⟩]++tr'++[⟨v,.call c',w⟩]) → ¬Undisturbed kr tr') ∧
    ∀ cfg kr,cellAt Formats.borsh.config h.programId t.bank kc=some cfg →
      CouldExecute h .borsh tr t kc kr →
      ∀ clock,∃ b',(program h .borsh).execute (cancelCall clock kr cfg.owner) t.bank=.ok b' := by
  refine ⟨?_,?_,?_⟩
  · intro x hx c hlabel hi
    obtain ⟨pre,post,rfl⟩ := append_of_mem hx
    obtain ⟨hfirst,hstep,-⟩ := hrun.cut
    obtain ⟨_,_,_⟩ := x
    obtain rfl := hlabel
    rw [append_cons] at hmatch
    exact no_execution hsep h0 hfirst hstep hi hmatch.before
  · intro c u tr' v c' w kr hstep hi _ _ _ _ _ _ hm
    rw [append_assoc] at hm
    exact (no_execution hsep h0 hrun hstep hi hm.before).elim
  · rintro cfg kr - ⟨tr',t',c,u,hrun',-,hstep,hi,-,-,hm⟩
    exact (no_execution hsep h0 (hrun.append hrun') hstep hi hm).elim

/-- Accounts of the sizes that a config with three guardians and a request with one approval
take. -/
def sizedBank : Bank := fun k =>
  if k=41#256 then ⟨1000#64,replicate 144 0#8,1#256⟩
  else if k=40000#256 then ⟨1000#64,replicate 168 0#8,1#256⟩
  else ⟨0#64,[],systemProgram⟩

theorem sizedBank_untouched : Untouched sampleHost.programId sizedBank := by
  intro k _
  unfold sizedBank
  split_ifs
  · exact fun x hx => eq_of_mem_replicate hx
  · exact fun x hx => eq_of_mem_replicate hx
  · nofun

theorem request_stays_pending : ∃ tr t cfg r,
    Run ((program sampleHost .borsh).Step anyCall) ⟨sizedBank,⟨0#64,0#64⟩⟩ tr t ∧
    cellAt Formats.borsh.config 1#256 t.bank 41#256=some cfg ∧ cfg.owner=20#256 ∧
    cellAt Formats.borsh.request 1#256 t.bank 40000#256=some r ∧ r.status=.pending ∧
    (∀ x∈tr,∀ c,x.label=.call c → c.instruction≠.executeRecovery) ∧
    (CouldExecute sampleHost .borsh tr t 41#256 40000#256 → ∃ b',(program sampleHost .borsh).execute
      (cancelCall ⟨1#64,300#64⟩ 40000#256 20#256) t.bank=.ok b') := by
  obtain ⟨⟨tr,t⟩,hhistory,hm,cfg,hcfg,howner,r,hr,hpending⟩ : ∃ x,
      (program sampleHost .borsh).history (recoveryCalls.take 2) ⟨sizedBank,⟨0#64,0#64⟩⟩=some x ∧
      matchingFrom sampleHost .borsh [] x.1=true ∧
      ∃ cfg,cellAt Formats.borsh.config 1#256 x.2.bank 41#256=some cfg ∧ cfg.owner=20#256 ∧
      ∃ r,cellAt Formats.borsh.request 1#256 x.2.bank 40000#256=some r ∧ r.status=.pending := by
    decide +kernel
  have hrun := history_anyCall hhistory
  obtain ⟨hnone,-,hcancel⟩ := requests_end_with_owner sampleHost_separate sizedBank_untouched hrun
    (matching_of_check hm) 41#256
  refine ⟨tr,t,cfg,r,hrun,hcfg,howner,hr,hpending,hnone,fun hcould => ?_⟩
  rw [← howner]
  exact hcancel cfg 40000#256 hcfg hcould _

end PrismChain.SocialRecovery
