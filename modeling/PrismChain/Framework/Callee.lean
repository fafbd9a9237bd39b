import PrismChain.Framework.Execution

namespace PrismChain

/-- The runtime together with the programs that callers name as callees. The runtime confines each
to the accounts it is passed and to what any other program may do. -/
structure Deployment extends Host where
  callee : Pubkey → List Byte → List Pubkey → Bank → Except ProgramError Bank
  confined : ∀ {p d ks b b'},callee p d ks b=.ok b' → Outside programId b b' ∧ ∀ k,k∉ks → b' k=b k

instance : Coe Deployment Host := ⟨Deployment.toHost⟩

namespace Deployment

/-- The data of a token instruction: its index and an amount. -/
def tokenData (index : Byte) (amount : U64) : List Byte := index::leBytes 8 amount.toNat

def tokenCall (e : Deployment) (iv : Invocation) (tokenProgram : Pubkey) (index : Byte)
    (first second authority : Pubkey) (amount : U64) (b : Bank) : Except ProgramError Bank := do
  require (iv.writable first ∧ iv.writable second) .privilegeEscalation
  e.callee tokenProgram (tokenData index amount) [first,second,authority] b

variable {e : Deployment} {iv : Invocation}

theorem tokenCall_spec
    (h : e.tokenCall iv tokenProgram index first second authority amount b=.ok b') :
    e.callee tokenProgram (tokenData index amount) [first,second,authority] b=.ok b' := by
  simp only [tokenCall,bind_eq_ok] at h
  exact h.choose_spec.2

theorem invoke_token (h : iv.invoke [first,second,authority]
      (e.tokenCall iv tokenProgram index first second authority amount) ⟨b,b⟩=.ok f) :
    ∃ b1,e.callee tokenProgram (tokenData index amount) [first,second,authority] b=.ok b1 ∧
      Outside e.programId b b1 ∧ f=⟨b1,b1⟩ := by
  obtain ⟨b1,hc,rfl⟩ := Invocation.invoke_clean h fun hc => (e.confined (tokenCall_spec hc)).2
  have hcall := tokenCall_spec hc
  exact ⟨b1,hcall,(e.confined hcall).1,rfl⟩

end Deployment
end PrismChain
