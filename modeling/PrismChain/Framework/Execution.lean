import PrismChain.Framework.Ledger
import PrismChain.Framework.Runs

namespace PrismChain

open List Option Invocation

variable {I : Type}

/-- A deployed program: its address and what its entrypoint does with one instruction. -/
structure Program (I : Type) where
  id : Pubkey
  process : Clock → List AccountInfo → I → Frame → ProgramResult

/-- One instruction as it is submitted. -/
structure Call (I : Type) where
  clock : Clock
  accounts : List AccountInfo
  instruction : I

structure Ledger where
  bank : Bank
  clock : Clock

def Call.key? (c : Call I) (i : Nat) : Option Pubkey := c.accounts[i]?.map AccountInfo.key

def Call.signer? (c : Call I) (i : Nat) : Option Pubkey :=
  c.accounts[i]?.bind fun a => if a.isSigner=true then some a.key else none

theorem Call.signer_mem {c : Call I} (h : c.signer? i=some k) :
    ∃ a∈c.accounts,a.key=k ∧ a.isSigner=true := by
  obtain ⟨a,ha,hkey⟩ := bind_eq_some_iff.mp h
  split at hkey
  case isTrue hsigns => exact ⟨a,mem_of_getElem? ha,some.inj hkey,hsigns⟩
  case isFalse => cases hkey

theorem Call.key_mem {c : Call I} (h : c.key? i=some k) : k∈c.accounts.map AccountInfo.key := by
  obtain ⟨a,ha,hkey⟩ := map_eq_some_iff.mp h
  exact mem_map.mpr ⟨a,mem_of_getElem? ha,hkey⟩

/-- The entrypoint runs on a copy of the bank and the runtime commits what passes its checks;
an instruction that fails changes nothing. -/
def Program.execute (P : Program I) (c : Call I) (b : Bank) : Except ProgramError Bank := do
  let f ← P.process c.clock c.accounts c.instruction ⟨b,b⟩
  Invocation.sync ⟨P.id,c.accounts⟩ (c.accounts.map AccountInfo.key) f
  pure f.view

/-- What everybody else can do to the bank: accounts of the program `id` can be credited only,
and an account that becomes one of them holds zeros. -/
def Outside (id : Pubkey) (b b' : Bank) : Prop :=
  ∀ k,((b k).owner=id → (b' k).owner=id ∧ (b' k).data=(b k).data ∧
      (b k).lamports.toNat≤(b' k).lamports.toNat) ∧
    ((b k).owner≠id → (b' k).owner=id → ∀ x∈(b' k).data,x=0#8)

/-- No account of the program `id` holds anything but zeros. -/
def Untouched (id : Pubkey) (b : Bank) : Prop :=
  ∀ k,(b k).owner=id → ∀ x∈(b k).data,x=0#8

theorem untouched_of_foreign {id : Pubkey} (h : ∀ k,(b k).owner≠id) : Untouched id b :=
  fun k hk => (h k hk).elim

inductive Action (I : Type) where
  | call (c : Call I)
  | outside

deriving instance DecidableEq for Call,Action

abbrev LogEntry (I : Type) := Transition Ledger (Action I)

abbrev Trace (I : Type) := List (LogEntry I)

namespace Program

variable {P : Program I} {ok : Bank → Call I → Prop}

/-- Accepted instructions that meet `ok` and outside activity, in any order under a clock that
never runs back. Accounts left without lamports stay: ends of transactions are steps of
`Settling` and `TxStep`. -/
inductive Step (P : Program I) (ok : Bank → Call I → Prop) : Ledger → Action I → Ledger → Prop
  | call {s : Ledger} {c : Call I} {b : Bank} (hclock : s.clock.before c.clock)
      (hok : ok s.bank c) (h : P.execute c s.bank=.ok b) : Step P ok s (.call c) ⟨b,c.clock⟩
  | outside {s : Ledger} {b : Bank} {clk : Clock} (hclock : s.clock.before clk)
      (h : Outside P.id s.bank b) : Step P ok s .outside ⟨b,clk⟩

def anyCall : Bank → Call I → Prop := fun _ _ => True

theorem Step.before (h : P.Step ok s a t) : s.clock.before t.clock := by
  cases h with
  | call hclock => exact hclock
  | outside hclock => exact hclock

theorem execute_eq_ok :
    P.execute c b=.ok b' ↔ ∃ f,P.process c.clock c.accounts c.instruction ⟨b,b⟩=.ok f ∧
      Synced P.id c.accounts f ∧ f.view=b' := by
  simp only [execute,steps_ok]
  constructor
  · intro ⟨f,hf,_,hs,hv⟩
    exact ⟨f,hf,hs,hv⟩
  · intro ⟨f,hf,hs,hv⟩
    exact ⟨f,hf,(),hs,hv⟩

theorem execute_error {c : Call I} {e : ProgramError}
    (h : P.process c.clock c.accounts c.instruction ⟨b,b⟩=.error e) : P.execute c b=.error e := by
  rw [execute,h,error_bind]

theorem sync_account {accounts : List AccountInfo} (h : Synced P.id accounts f)
    (hk : k∈accounts.map AccountInfo.key) :
    ((f.synced k).owner=P.id ∨ (f.synced k).lamports.toNat≤(f.view k).lamports.toNat) ∧
      ((f.synced k).data=(f.view k).data ∨ (f.synced k).owner=P.id) := by
  have hall := checkAccount_eq_ok.mp ((sync_eq_ok.mp h).1 k hk)
  exact ⟨hall.1,hall.2.2.2⟩

instance (c d : Clock) : Decidable (c.before d) :=
  inferInstanceAs (Decidable (_ ∧ _))

/-- Runs a list of instructions and keeps the history, for evaluation on concrete inputs. -/
def history (P : Program I) : List (Call I) → Ledger → Option (Trace I×Ledger)
  | [],s => some ([],s)
  | c::cs,s =>
    match P.execute c s.bank with
    | .error _ => none
    | .ok b =>
      if s.clock.before c.clock then
        (history P cs ⟨b,c.clock⟩).map fun x => (⟨s,.call c,⟨b,c.clock⟩⟩::x.1,x.2)
      else none

theorem history_cons (h : P.history (c::cs) s=some (tr,t)) :
    ∃ b tail,P.execute c s.bank=.ok b ∧ s.clock.before c.clock ∧
      P.history cs ⟨b,c.clock⟩=some (tail,t) ∧ tr=⟨s,.call c,⟨b,c.clock⟩⟩::tail := by
  simp only [history] at h
  cases hx : P.execute c s.bank with
  | error => simp [hx] at h
  | ok b =>
    rw [hx] at h
    by_cases hclock : s.clock.before c.clock
    · simp only [hclock,if_true] at h
      obtain ⟨⟨tail,_⟩,htail,he⟩ := map_eq_some_iff.mp h
      cases he
      exact ⟨b,tail,rfl,hclock,htail,rfl⟩
    · simp [hclock] at h

theorem history_append (h : P.history (as++bs) s=some (tr,t)) :
    ∃ tr1 u tr2,P.history as s=some (tr1,u) ∧ P.history bs u=some (tr2,t) ∧ tr=tr1++tr2 := by
  induction as generalizing s tr with
  | nil => exact ⟨[],s,tr,rfl,h,rfl⟩
  | cons c as ih =>
    obtain ⟨b,_,hx,hclock,htail,rfl⟩ := history_cons h
    obtain ⟨tr1,u,tr2,h1,h2,rfl⟩ := ih htail
    refine ⟨⟨s,.call c,⟨b,c.clock⟩⟩::tr1,u,tr2,?_,h2,rfl⟩
    simp only [history,hx,if_pos hclock,h1,map_some]

theorem history_calls (h : P.history cs s=some (tr,t)) : ∀ x∈tr,∃ c∈cs,x.label=.call c := by
  induction cs generalizing s tr with
  | nil =>
    cases h
    intro x hx
    cases hx
  | cons c cs ih =>
    obtain ⟨b,_,_,_,htail,rfl⟩ := history_cons h
    intro x hx
    cases mem_cons.mp hx with
    | inl heq => exact ⟨c,mem_cons_self,by rw [heq]⟩
    | inr hmem =>
      obtain ⟨d,hd,hlabel⟩ := ih htail x hmem
      exact ⟨d,mem_cons_of_mem _ hd,hlabel⟩

theorem history_run (h : P.history cs s=some (tr,t))
    (hok : ∀ x∈tr,∀ c,x.label=.call c → ok x.pre.bank c) : Run (P.Step ok) s tr t := by
  induction cs generalizing s tr with
  | nil =>
    cases h
    exact .start
  | cons c cs ih =>
    obtain ⟨b,_,hx,hclock,htail,rfl⟩ := history_cons h
    have hfirst : Run (P.Step ok) s [⟨s,.call c,⟨b,c.clock⟩⟩] ⟨b,c.clock⟩ :=
      Run.start.next (.call hclock (hok _ mem_cons_self c rfl) hx)
    exact hfirst.append (ih htail fun x hx => hok x (mem_cons_of_mem _ hx))

/-- For a condition that does not depend on the bank it is enough to look at the instructions. -/
theorem history_run_calls (h : P.history cs s=some (tr,t)) (hok : ∀ c∈cs,∀ b,ok b c) :
    Run (P.Step ok) s tr t := by
  refine history_run h fun x hx c hc => ?_
  obtain ⟨d,hd,hlabel⟩ := history_calls h x hx
  rw [hlabel] at hc
  cases hc
  exact hok c hd x.pre.bank

theorem exists_run {p : Trace I → Ledger → Prop} (cs : List (Call I)) (hok : ∀ c∈cs,∀ b,ok b c)
    (h : ∃ x,P.history cs s=some x ∧ p x.1 x.2) : ∃ tr t,Run (P.Step ok) s tr t ∧ p tr t := by
  obtain ⟨x,hx,hp⟩ := h
  exact ⟨x.1,x.2,history_run_calls hx hok,hp⟩

theorem exists_run_any {p : Trace I → Ledger → Prop} (cs : List (Call I))
    (h : ∃ x,P.history cs s=some x ∧ p x.1 x.2) : ∃ tr t,Run (P.Step anyCall) s tr t ∧ p tr t :=
  exists_run cs (fun _ _ _ => trivial) h

theorem history_anyCall (h : P.history cs s=some (tr,t)) : Run (P.Step anyCall) s tr t :=
  history_run_calls h fun _ _ _ => trivial

end Program

namespace Outside

variable {id : Pubkey} {b b' : Bank}

theorem refl (id : Pubkey) (b : Bank) : Outside id b b :=
  fun _ => ⟨fun h => ⟨h,rfl,le_refl _⟩,fun h h' => absurd h' h⟩

theorem owned (h : Outside id b b') (hk : (b k).owner=id) :
    (b' k).owner=id ∧ (b' k).data=(b k).data ∧ (b k).lamports.toNat≤(b' k).lamports.toNat :=
  (h k).1 hk

theorem trans (h : Outside id b b') (h' : Outside id b' b'') : Outside id b b'' := by
  intro k
  refine ⟨fun hk => ?_,fun hk hk'' => ?_⟩
  · obtain ⟨howner,hdata,hle⟩ := h.owned hk
    obtain ⟨howner',hdata',hle'⟩ := h'.owned howner
    exact ⟨howner',hdata'.trans hdata,hle.trans hle'⟩
  · by_cases howner : (b' k).owner=id
    · rw [(h'.owned howner).2.1]
      exact (h k).2 hk howner
    · exact (h' k).2 howner hk''

end Outside
end PrismChain
