import PstakeNative.LiquidStakeIBC.ChainIsolation

/-! # Remote operations and the chains' `Active` flag

An inactive host chain is one the keeper has stopped operating on. The deposit, LSM,
undelegation, validator undelegation and rewards workflows each skip it, and `BeforeEpochStart`
submits nothing at all. `RebalanceWorkflow` has no such check: it submits the redelegations
`GenerateRedelegateMsgs` returns for every registered chain, active or not.
-/

namespace PstakeNative.LiquidStakeIBC

/-- From `s` to `s'` the registry stays, and every remote call is made for a chain that is
active in it. -/
def ActiveCalls (s s' : State) : Prop :=
  s'.registry = s.registry ∧ CallsFrom s.CallForActive s s'

namespace ActiveCalls

theorem refl (s : State) : ActiveCalls s s := ⟨rfl, .refl s⟩

theorem trans {s₁ s₂ s₃ : State} (h₁ : ActiveCalls s₁ s₂) (h₂ : ActiveCalls s₂ s₃) :
    ActiveCalls s₁ s₃ :=
  ⟨h₂.1.trans h₁.1, h₁.2.trans (h₂.2.mono fun _ hc => by
    unfold State.CallForActive at hc ⊢
    rwa [h₁.1] at hc)⟩

theorem of_recordFrame {s s' : State} (h : RecordFrame s s')
    (hc : CallsFrom s.CallForActive s s') : ActiveCalls s s' :=
  ⟨h.registry, hc⟩

end ActiveCalls

/-- A loop over the registry whose pass for each chain keeps the registry and submits only for
that chain when it is active submits only for active chains. -/
theorem foldlM_chains_activeCalls {f : State → HostChain → Except KeeperError State}
    {s s' : State}
    (hf : ∀ a hc a', f a hc = .ok a' → a'.registry = a.registry ∧
      CallsFrom (fun c => c.chainId = hc.chainId ∧ hc.active = true) a a')
    (h : s.getAllHostChains.foldlM f s = .ok s') : ActiveCalls s s' :=
  foldlM_rel (fun a a' : State => a'.registry = a.registry ∧ CallsFrom s.CallForActive a a')
    (fun a => ⟨rfl, .refl a⟩) (fun _ _ _ h₁ h₂ => ⟨h₂.1.trans h₁.1, h₁.2.trans h₂.2⟩)
    (fun a hc a' hhc h => (hf a hc a' h).imp id
      (.mono fun _ ⟨hcid, hact⟩ => callForActive_of_mem hhc hact hcid)) h

variable (env : Env)

/-- A transfer is submitted for the chain it names, and the registry is left alone. -/
theorem submitTransfer_calls {s s₁ : State} {c : String} {k : RecordKey} {msg : MsgTransfer}
    {r : Option Nat} (hsub : s.submitTransfer env c k msg = (r, s₁)) :
    s₁.registry = s.registry ∧ CallsFrom (·.chainId = c) s s₁ := by
  rcases submitTransfer_cases s env hsub with ⟨-, rfl | rfl⟩ | ⟨-, rfl⟩ <;>
    exact ⟨rfl, ⟨_, rfl, by simp⟩⟩

/-! ## The deposit and LSM workflows -/

/-- A deposit's transfer is submitted only for its chain, when the chain is active. -/
theorem depositWorkflowStep_activeCalls {n : Int} {d : Deposit} {s s' : State}
    (h : depositWorkflowStep env n d s = .ok s') : ActiveCalls s s' := by
  rcases depositWorkflowStep_cases env h with rfl | ⟨-, -, rfl⟩ | ⟨hc, r, s₁, hhc, -, hact, hsub, hr⟩
  · exact .refl _
  · exact ⟨rfl, .of_eq rfl⟩
  have hmem : hc ∈ s.getAllHostChains := ((s.hostChains.get?_eq_some_iff).mp hhc).1
  obtain ⟨hreg, hcalls⟩ := submitTransfer_calls env hsub
  have h₁ : ActiveCalls s s₁ := ⟨hreg, hcalls.mono fun _ hcid => callForActive_of_mem hmem hact hcid⟩
  rcases hr with ⟨-, rfl⟩ | ⟨m, e, -, rfl⟩
  · exact h₁
  · exact h₁.trans ⟨rfl, .of_eq rfl⟩

theorem depositWorkflow_activeCalls {n : Int} {s s' : State}
    (h : depositWorkflow env n s = .ok s') : ActiveCalls s s' :=
  foldlM_rel ActiveCalls ActiveCalls.refl (fun _ _ _ => ActiveCalls.trans)
    (fun _ _ _ _ h => depositWorkflowStep_activeCalls env h) h

/-- A chain's LSM pass runs only for an active chain, and submits for that chain only. -/
theorem lsmWorkflowChain_calls {s s' : State} {hc : HostChain}
    (h : lsmWorkflowChain env s hc = .ok s') :
    s'.registry = s.registry ∧ CallsFrom (fun c => c.chainId = hc.chainId ∧ hc.active = true) s s' := by
  rcases lsmWorkflowChain_cases env h with rfl | ⟨hact, -, s₁, total, hloop, rfl⟩
  · exact ⟨rfl, .refl _⟩
  refine (foldlM_rel (fun a a' : State × LegacyDec => a'.1.registry = a.1.registry ∧
      CallsFrom (fun c => c.chainId = hc.chainId ∧ hc.active = true) a.1 a'.1)
    (fun a => ⟨rfl, .refl a.1⟩) (fun _ _ _ h₁ h₂ => ⟨h₂.1.trans h₁.1, h₁.2.trans h₂.2⟩)
    (fun ⟨a, _⟩ d ⟨a', _⟩ _ h => ?_) hloop).imp id (·.trans (.of_eq rfl))
  obtain ⟨token, r, s₂, hsub, ⟨-, rfl⟩ | ⟨m, -, rfl⟩⟩ := lsmWorkflowStep_cases env h <;>
    obtain ⟨hreg, hcalls⟩ := submitTransfer_calls env hsub
  · exact ⟨hreg, hcalls.mono fun _ hcid => ⟨hcid, hact⟩⟩
  · exact ⟨(registry_congr (by simp)).trans hreg,
      (hcalls.mono fun _ hcid => ⟨hcid, hact⟩).trans (.of_eq (by simp))⟩

theorem lsmWorkflow_activeCalls {s s' : State} (h : lsmWorkflow env s = .ok s') :
    ActiveCalls s s' :=
  foldlM_chains_activeCalls (fun _ _ _ h => lsmWorkflowChain_calls env h) h

/-! ## The epoch hooks -/

/-- On every epoch identifier but the redelegation epoch's, `AfterEpochEnd` submits only for
active chains. -/
theorem afterEpochEnd_activeCalls {epochIdentifier : String} {n : Int} {s s' : State}
    (hid : epochIdentifier ≠ env.redelegationEpochIdentifer)
    (h : afterEpochEnd env epochIdentifier n s = .ok s') : ActiveCalls s s' :=
  afterEpochEnd_rel env ActiveCalls ActiveCalls.refl ActiveCalls.trans
    (fun _ _ _ h => depositWorkflow_activeCalls env h) (fun _ _ _ h => lsmWorkflow_activeCalls env h)
    (fun _ _ _ h => .of_recordFrame (validatorUndelegationWorkflow_frame env h).1
      (validatorUndelegationWorkflow_frame env h).2)
    (fun _ _ _ h => .of_recordFrame (undelegationWorkflow_frame env h).1
      (undelegationWorkflow_frame env h).2)
    (fun _ s => .of_recordFrame (rewardsWorkflow_frame env _ s).1 (rewardsWorkflow_frame env _ s).2)
    (fun he => absurd he hid) h

/-- `BeforeEpochStart` submits no remote operation. -/
theorem beforeEpochStart_remoteCalls (epochIdentifier : String) (e : Int) (s : State) :
    (beforeEpochStart env epochIdentifier e s).remoteCalls = s.remoteCalls := by
  obtain ⟨l, hl⟩ := beforeEpochStart_eq env epochIdentifier e s
  rw [hl]
  split_ifs
  · obtain ⟨t, ht⟩ := s.createDeposits_deposits_only env e
    rw [ht]
  · rfl

/-- Apart from the rebalance workflow, the epoch hooks submit only for active chains: on every
epoch identifier but the redelegation epoch's, `AfterEpochEnd` submits remote operations only
for registered chains that are active, whatever the outcomes of its submissions; and
`BeforeEpochStart` submits none on any identifier. -/
theorem epochHooks_submit_for_active_chains (s : State) (epochIdentifier : String) (n : Int) :
    (epochIdentifier ≠ env.redelegationEpochIdentifer →
      CallsFrom s.CallForActive s (step env s (.afterEpochEnd epochIdentifier n))) ∧
    (step env s (.beforeEpochStart epochIdentifier n)).remoteCalls = s.remoteCalls := by
  refine ⟨fun hid => ?_, beforeEpochStart_remoteCalls env _ _ s⟩
  simp only [step]
  rcases h : afterEpochEnd env epochIdentifier n s with _ | s'
  · exact .refl s
  · exact (afterEpochEnd_activeCalls env hid h).2

/-- On the undelegation epoch `day`, which is not the redelegation epoch, `AfterEpochEnd`
submits the forced undelegations of the active chains `A` and `B`. -/
theorem epochHooks_submit_for_active_chains_twoChainState :
    "day" ≠ (forceUnbondEnv fun _ => some "ica-1").redelegationEpochIdentifer ∧
      (step (forceUnbondEnv fun _ => some "ica-1") twoChainState
        (.afterEpochEnd "day" 10)).remoteCalls.map (·.chainId) = ["A", "B"] ∧
      CallsFrom twoChainState.CallForActive twoChainState
        (step (forceUnbondEnv fun _ => some "ica-1") twoChainState (.afterEpochEnd "day" 10)) :=
  ⟨by decide, by decide, (epochHooks_submit_for_active_chains (forceUnbondEnv fun _ => some "ica-1")
    twoChainState "day" 10).1 (by decide)⟩

/-! ## The rebalance workflow -/

/-- The transactions the rebalance pass of a chain submits: one for each redelegation
`GenerateRedelegateMsgs` returns, none on the chain's unbonding epochs. -/
def rebalanceCalls (epoch : Int) (hc : HostChain) : List RemoteCall :=
  if env.isUnbondingEpoch hc.unbondingFactor epoch then []
  else (env.generateRedelegateMsgs hc).map fun msg =>
    ⟨hc.chainId, none, .icaTx hc.connectionId hc.delegationAccount.owner [msg]⟩

/-- A chain's rebalance pass submits its `rebalanceCalls`, whatever their outcomes; the chain's
`Active` flag is not read. -/
theorem rebalanceWorkflowChain_remoteCalls (epoch : Int) (s : State) (hc : HostChain) :
    (rebalanceWorkflowChain env epoch s hc).remoteCalls = s.remoteCalls ++ rebalanceCalls env epoch hc := by
  unfold rebalanceWorkflowChain rebalanceCalls
  split_ifs
  · simp
  induction env.generateRedelegateMsgs hc generalizing s with
  | nil => simp
  | cons msg msgs ih =>
    have hstep : (rebalanceWorkflowStep env hc s msg).remoteCalls = s.remoteCalls ++
        [⟨hc.chainId, none, .icaTx hc.connectionId hc.delegationAccount.owner [msg]⟩] := by
      simp only [rebalanceWorkflowStep, State.generateAndExecuteICATx]
      rcases env.icaOutcome s.calls with _ | _ <;> rfl
    simp [ih, hstep]

/-- `RebalanceWorkflow` submits, chain after chain in the registry's order, every chain's
`rebalanceCalls`: what it submits for a chain depends neither on the outcomes of any submission
nor on the chain's `Active` flag. -/
theorem rebalanceWorkflow_remoteCalls (epoch : Int) (s : State) :
    (rebalanceWorkflow env epoch s).remoteCalls =
      s.remoteCalls ++ s.getAllHostChains.flatMap (rebalanceCalls env epoch) := by
  unfold rebalanceWorkflow
  generalize s.getAllHostChains = l
  induction l generalizing s with
  | nil => simp
  | cons hc l ih => simp [ih, rebalanceWorkflowChain_remoteCalls]

/-- A redelegation epoch `week` on which no chain unbonds and `GenerateRedelegateMsgs` moves 10
from validator `val-1` to validator `val-2`. -/
def rebalanceEnv : Env :=
  { exampleEnv with
    redelegationEpochIdentifer := "week"
    generateRedelegateMsgs := fun hc =>
      [.msgBeginRedelegate hc.delegationAccount.address "val-1" "val-2" ⟨"uatom", 10⟩] }

/-- An inactive chain `D` with 100 delegated to `val-1` and nothing to `val-2`. -/
def inactiveChainState : State :=
  State.genesis (Table.empty.set { chainC with
    chainId := "D", active := false, validators := [⟨"val-1", 100, 0⟩, ⟨"val-2", 0, 0⟩] }) 3

/-- `AfterEpochEnd` on the redelegation epoch submits a transaction for the inactive chain `D`. -/
theorem afterEpochEnd_submits_for_inactive_chain :
    (inactiveChainState.getHostChain "D").map (·.active) = some false ∧
    (step rebalanceEnv inactiveChainState (.afterEpochEnd "week" 3)).remoteCalls.map (·.chainId) =
      ["D"] := by
  decide

end PstakeNative.LiquidStakeIBC
