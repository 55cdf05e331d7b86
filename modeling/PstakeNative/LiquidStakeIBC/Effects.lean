import PstakeNative.LiquidStakeIBC.Tracking

/-! # The workflows that leave the deposits alone

The undelegation, validator undelegation, rewards and rebalance workflows, and the undelegation
branch of an inbound transfer, write unbondings, validator sets, redelegation records and events,
and submit interchain-account transactions and queries. None of them reads or writes a deposit,
an LSM deposit, a delegation balance or the transport, so each is a `RecordFrame`. Each names the
chains it submits for: all but the rebalance workflow submit for active chains only.
-/

namespace PstakeNative.LiquidStakeIBC

variable (env : Env) {s s' : State}

/-! ## Undelegation workflow -/

theorem undelegationWorkflowChain_frame {epoch : Int} {hc : HostChain}
    (h : undelegationWorkflowChain env epoch s hc = .ok s') :
    RecordFrame s s' ∧ CallsFrom (fun c => c.chainId = hc.chainId ∧ hc.active = true) s s' := by
  rcases undelegationWorkflowChain_cases env h with
    rfl | ⟨hact, u, -, rfl | ⟨msgs, -, rfl | ⟨sequenceId, e, rfl⟩⟩⟩
  · exact ⟨.refl _, .refl _⟩
  · exact ⟨.of_views rfl rfl rfl rfl rfl rfl (.of_eq rfl), .of_eq rfl⟩
  · exact ⟨.of_views rfl rfl rfl rfl rfl rfl ⟨_, rfl, by simp⟩, ⟨_, rfl, by simp [hact]⟩⟩
  · exact ⟨.of_views rfl rfl rfl rfl rfl rfl ⟨_, rfl, by simp⟩, ⟨_, rfl, by simp [hact]⟩⟩

/-- A call made for a chain of the registry that is active is a call for an active chain. -/
theorem callForActive_of_mem {hc : HostChain} (hhc : hc ∈ s.getAllHostChains)
    (hact : hc.active = true) {c : RemoteCall} (hcid : c.chainId = hc.chainId) :
    s.CallForActive c :=
  ⟨{ hc with validators := [] }, hcid ▸ registry_of_mem hhc, hact⟩

/-- A loop over the registry whose pass for each chain is a frame submitting only for that chain
when it is active. -/
theorem foldlM_chains_frame {f : State → HostChain → Except KeeperError State}
    (hf : ∀ s hc s', f s hc = .ok s' →
      RecordFrame s s' ∧ CallsFrom (fun c => c.chainId = hc.chainId ∧ hc.active = true) s s')
    (h : s.getAllHostChains.foldlM f s = .ok s') :
    RecordFrame s s' ∧ CallsFrom s.CallForActive s s' := by
  refine foldlM_rel (fun a a' => RecordFrame a a' ∧ CallsFrom s.CallForActive a a')
    (fun a => ⟨.refl a, .refl a⟩) (fun _ _ _ h₁ h₂ => ⟨h₁.1.trans h₂.1, h₁.2.trans h₂.2⟩)
    (fun a hc a' hhc ha => ?_) h
  obtain ⟨hframe, hcalls⟩ := hf a hc a' ha
  exact ⟨hframe, hcalls.mono fun c ⟨hcid, hact⟩ => callForActive_of_mem hhc hact hcid⟩

theorem undelegationWorkflow_frame {epoch : Int}
    (h : undelegationWorkflow env epoch s = .ok s') :
    RecordFrame s s' ∧ CallsFrom s.CallForActive s s' :=
  foldlM_chains_frame (fun _ _ _ => undelegationWorkflowChain_frame env) h

/-! ## Validator undelegation workflow -/

/-- One chain's validators: the loop carries the chain's record with the registry's balance, so
that the validator set it writes back changes nothing else. -/
theorem validatorUndelegationLoop_frame {epoch : Int} (vs : List Validator) {hc : HostChain}
    {s s' : State} {returned : Bool}
    (hreg : s.registry hc.chainId = some { hc with validators := [] })
    (h : validatorUndelegationLoop env epoch vs hc s = .ok (returned, s')) :
    RecordFrame s s' ∧ CallsFrom (·.chainId = hc.chainId) s s' := by
  induction vs generalizing hc s with
  | nil =>
    cases (Prod.mk.inj (pure_eq_ok.mp h)).2
    exact ⟨.refl _, .refl _⟩
  | cons v rest ih =>
    simp only [validatorUndelegationLoop] at h
    split_ifs at h
    · exact ih hreg h
    obtain ⟨amount, -, h⟩ := bind_eq_ok.mp h
    simp only [State.generateAndExecuteICATx] at h
    rcases hica : env.icaOutcome s.calls with _ | sequenceId <;> rw [hica] at h
    · cases (Prod.mk.inj (pure_eq_ok.mp h)).2
      exact ⟨.of_views rfl rfl rfl rfl rfl rfl ⟨_, rfl, by simp⟩, ⟨_, rfl, by simp⟩⟩
    obtain ⟨_, -, h⟩ := bind_eq_ok.mp h
    have hreg' := registry_setHostChain_validators hreg (env.redistributeValidatorWeight hc.validators v)
    obtain ⟨hframe, hcalls⟩ := ih (by exact (congrFun hreg' hc.chainId).trans hreg) h
    refine ⟨.trans ?_ hframe, .trans ⟨_, rfl, by simp⟩ hcalls⟩
    exact ⟨rfl, rfl, hreg', rfl, rfl, rfl, ⟨_, rfl, by simp⟩⟩

/-- The chains of the workflow, until a submission fails: each pass starts from the registry's
record of its chain, since the passes before it changed no other chain's record. -/
theorem validatorUndelegationChains_frame {epoch : Int} (chains : List HostChain) {s s' : State}
    (hreg : ∀ hc ∈ chains, s.registry hc.chainId = some { hc with validators := [] })
    (h : validatorUndelegationChains env epoch chains s = .ok s') :
    RecordFrame s s' ∧
      CallsFrom (fun c => ∃ hc ∈ chains, c.chainId = hc.chainId ∧ hc.active = true) s s' := by
  induction chains generalizing s with
  | nil =>
    cases pure_eq_ok.mp h
    exact ⟨.refl _, .refl _⟩
  | cons hc rest ih =>
    have hrest := fun hc' hmem => hreg hc' (List.mem_cons_of_mem hc hmem)
    have hwiden : ∀ c : RemoteCall, (∃ hc' ∈ rest, c.chainId = hc'.chainId ∧ hc'.active = true) →
        ∃ hc' ∈ hc :: rest, c.chainId = hc'.chainId ∧ hc'.active = true :=
      fun _ ⟨hc', hmem, hcid⟩ => ⟨hc', List.mem_cons_of_mem hc hmem, hcid⟩
    simp only [validatorUndelegationChains] at h
    split_ifs at h with hact hepoch
    · exact (ih hrest h).imp id (CallsFrom.mono hwiden)
    · exact (ih hrest h).imp id (CallsFrom.mono hwiden)
    obtain ⟨⟨returned, s₁⟩, hloop, h⟩ := bind_eq_ok.mp h
    obtain ⟨hframe₁, hcalls₁⟩ := validatorUndelegationLoop_frame env hc.validators
      (hreg hc (List.mem_cons_self hc rest)) hloop
    have hcalls₁ := hcalls₁.mono (q := fun c => ∃ hc' ∈ hc :: rest,
      c.chainId = hc'.chainId ∧ hc'.active = true)
      fun c hcid => ⟨hc, List.mem_cons_self hc rest, hcid, by simpa using hact⟩
    split_ifs at h
    · cases pure_eq_ok.mp h
      exact ⟨hframe₁, hcalls₁⟩
    · obtain ⟨hframe₂, hcalls₂⟩ := ih (fun hc' hmem => hframe₁.registry ▸ hrest hc' hmem) h
      exact ⟨hframe₁.trans hframe₂, hcalls₁.trans (hcalls₂.mono hwiden)⟩

theorem validatorUndelegationWorkflow_frame {epoch : Int}
    (h : validatorUndelegationWorkflow env epoch s = .ok s') :
    RecordFrame s s' ∧ CallsFrom s.CallForActive s s' := by
  obtain ⟨hframe, hcalls⟩ := validatorUndelegationChains_frame env s.getAllHostChains
    (fun _ hhc => registry_of_mem hhc) h
  exact ⟨hframe, hcalls.mono fun c ⟨hc, hhc, hcid, hact⟩ => callForActive_of_mem hhc hact hcid⟩

/-! ## Rewards and rebalance workflows -/

theorem recordCall_frame (s : State) (c : String) (op : RemoteOp) :
    RecordFrame s (s.recordCall c none op) ∧ CallsFrom (·.chainId = c) s (s.recordCall c none op) :=
  ⟨.of_views rfl rfl rfl rfl rfl rfl (.recordCall s c none op rfl), .recordCall s c none op rfl⟩

theorem emit_frame (s : State) (e : Event) : RecordFrame s (s.emit e) :=
  .of_views rfl rfl rfl rfl rfl rfl (.of_eq rfl)

theorem rewardsAccountQueries_frame (hc : HostChain) (s : State) :
    RecordFrame s (rewardsAccountQueries env hc s) ∧
      CallsFrom (·.chainId = hc.chainId) s (rewardsAccountQueries env hc s) := by
  unfold rewardsAccountQueries
  split
  · split_ifs
    · exact (recordCall_frame s _ _).imp (·.trans (recordCall_frame _ _ _).1)
        (·.trans (recordCall_frame _ _ _).2)
    · exact recordCall_frame s _ _
    · exact ⟨.refl s, .refl s⟩
  · exact ⟨.refl s, .refl s⟩

theorem rewardsWorkflowChain_frame (epoch : Int) (s : State) (hc : HostChain) :
    RecordFrame s (rewardsWorkflowChain env epoch s hc) ∧
      CallsFrom (fun c => c.chainId = hc.chainId ∧ hc.active = true) s
        (rewardsWorkflowChain env epoch s hc) := by
  unfold rewardsWorkflowChain
  split_ifs with hinactive
  · exact ⟨.refl s, .refl s⟩
  all_goals have hact : hc.active = true := by simpa using hinactive
  · simp only [State.generateAndExecuteICATx]
    rcases env.icaOutcome s.calls with _ | _
    · exact (recordCall_frame s _ _).imp id (.mono fun _ hcid => ⟨hcid, hact⟩)
    · have h₁ := recordCall_frame s hc.chainId
        (.icaTx hc.connectionId hc.delegationAccount.owner (rewardsMessages hc))
      have h₂ := rewardsAccountQueries_frame env hc ((s.recordCall hc.chainId none
        (.icaTx hc.connectionId hc.delegationAccount.owner (rewardsMessages hc))).emit
          (.rewardsWorkflow hc.chainId epoch (rewardsMessages hc)))
      exact ⟨h₁.1.trans ((emit_frame _ _).trans h₂.1),
        (h₁.2.trans ((CallsFrom.of_eq rfl).trans h₂.2)).mono fun _ hcid => ⟨hcid, hact⟩⟩
  · exact (rewardsAccountQueries_frame env hc s).imp id (.mono fun _ hcid => ⟨hcid, hact⟩)

/-- A pass over the registry that cannot fail, whose step for each chain is a frame. -/
theorem foldl_chains_frame {f : State → HostChain → State} (p : HostChain → RemoteCall → Prop)
    (hf : ∀ s hc, RecordFrame s (f s hc) ∧ CallsFrom (p hc) s (f s hc)) (s : State) :
    RecordFrame s (s.getAllHostChains.foldl f s) ∧
      CallsFrom (fun c => ∃ hc ∈ s.getAllHostChains, p hc c) s (s.getAllHostChains.foldl f s) :=
  foldl_rel (fun a a' => RecordFrame a a' ∧ CallsFrom (fun c => ∃ hc ∈ s.getAllHostChains, p hc c) a a')
    (fun a => ⟨.refl a, .refl a⟩) (fun _ _ _ h₁ h₂ => ⟨h₁.1.trans h₂.1, h₁.2.trans h₂.2⟩)
    (fun a hc hhc => (hf a hc).imp id (.mono fun _ hc' => ⟨hc, hhc, hc'⟩)) s

theorem rewardsWorkflow_frame (epoch : Int) (s : State) :
    RecordFrame s (rewardsWorkflow env epoch s) ∧
      CallsFrom s.CallForActive s (rewardsWorkflow env epoch s) :=
  (foldl_chains_frame _ (rewardsWorkflowChain_frame env epoch) s).imp id
    (.mono fun _ ⟨_, hhc, hcid, hact⟩ => callForActive_of_mem hhc hact hcid)

theorem rebalanceWorkflowStep_frame (hc : HostChain) (s : State) (msg : ICAMsg) :
    RecordFrame s (rebalanceWorkflowStep env hc s msg) ∧
      CallsFrom (·.chainId = hc.chainId) s (rebalanceWorkflowStep env hc s msg) := by
  unfold rebalanceWorkflowStep
  simp only [State.generateAndExecuteICATx]
  rcases env.icaOutcome s.calls with _ | _
  · exact recordCall_frame s _ _
  · exact (recordCall_frame s _ _).imp (·.trans (.of_views rfl rfl rfl rfl rfl rfl (.of_eq rfl)))
      (·.trans (.of_eq rfl))

/-- The rebalance workflow submits for registered chains, whether active or not. -/
theorem rebalanceWorkflow_frame (epoch : Int) (s : State) :
    RecordFrame s (rebalanceWorkflow env epoch s) ∧
      CallsFrom (fun c => ∃ hc ∈ s.getAllHostChains, c.chainId = hc.chainId) s
        (rebalanceWorkflow env epoch s) := by
  refine foldl_chains_frame (fun hc c => c.chainId = hc.chainId) (fun s hc => ?_) s
  unfold rebalanceWorkflowChain
  split_ifs
  · exact ⟨.refl s, .refl s⟩
  · exact foldl_rel (fun a a' => RecordFrame a a' ∧ CallsFrom (·.chainId = hc.chainId) a a')
      (fun a => ⟨.refl a, .refl a⟩) (fun _ _ _ h₁ h₂ => ⟨h₁.1.trans h₂.1, h₁.2.trans h₂.2⟩)
      (fun a msg _ => rebalanceWorkflowStep_frame env hc a msg) s

/-! ## Inbound transfers -/

theorem recvUndelegationTransfer_frame {hc : HostChain} {data : FungibleTokenPacketData}
    (h : recvUndelegationTransfer env hc data s = .ok s') :
    RecordFrame s s' ∧ s'.remoteCalls = s.remoteCalls := by
  unfold recvUndelegationTransfer at h
  split_ifs at h
  · refine foldlM_rel (fun a a' => RecordFrame a a' ∧ a'.remoteCalls = a.remoteCalls)
      (fun a => ⟨.refl a, rfl⟩) (fun _ _ _ h₁ h₂ => ⟨h₁.1.trans h₂.1, h₂.2.trans h₁.2⟩)
      (fun a u a' _ h => ?_) h
    obtain ⟨_, -, h⟩ := bind_eq_ok.mp h
    cases pure_eq_ok.mp h
    exact ⟨.of_views rfl rfl rfl rfl rfl rfl (.of_eq rfl), rfl⟩
  · cases pure_eq_ok.mp h
    exact ⟨.refl _, rfl⟩

/-- An inbound transfer moves no tracked record: the branches that credit the current deposit
keep its state and sequence id, and none makes a remote call or touches the registry. -/
theorem onRecvIBCTransferPacket_effect {packet : Packet} {transferAck : Acknowledgement}
    (h : onRecvIBCTransferPacket env packet transferAck s = .ok s') :
    s'.tracked = s.tracked ∧ s'.registry = s.registry ∧ CallbackFrame s s' := by
  rcases onRecvIBCTransferPacket_eq_ok env h with rfl | ⟨data, hc, s₁, s₂, -, -, h₁, h₂, h₃⟩
  · exact ⟨rfl, rfl, .refl _⟩
  obtain ⟨hframe₁, hcalls₁⟩ := recvUndelegationTransfer_frame env h₁
  have h₁₂ : s₂.tracked = s₁.tracked ∧ s₂.registry = s₁.registry ∧ CallbackFrame s₁ s₂ := by
    rcases recvValidatorUnbondingTransfer_eq_ok env h₂ with rfl | ⟨d, A, e, hd, -, -, rfl⟩
    · exact ⟨rfl, rfl, .refl _⟩
    have hkey := ((s₁.deposits.get?_eq_some_iff).mp hd).2
    exact ⟨tracked_setDeposit_amount _ (hkey ▸ hd) _, rfl, ⟨rfl, rfl, rfl, rfl⟩⟩
  have h₂₃ : s'.tracked = s₂.tracked ∧ s'.registry = s₂.registry ∧ CallbackFrame s₂ s' := by
    rcases recvAutocompoundTransfer_eq_ok env h₃ with ⟨-, rfl⟩ | ⟨_, _, _, d, e, -, -, -, -, hd, rfl⟩
    · exact ⟨rfl, rfl, .refl _⟩
    have hkey := ((s₂.deposits.get?_eq_some_iff).mp hd).2
    exact ⟨tracked_setDeposit_amount (s := { s₂ with calls := _, protocolFees := _ })
      (hkey ▸ hd) _, rfl, ⟨rfl, rfl, rfl, rfl⟩⟩
  exact ⟨h₂₃.1.trans (h₁₂.1.trans hframe₁.tracked), h₂₃.2.1.trans (h₁₂.2.1.trans hframe₁.registry),
    (CallbackFrame.of_recordFrame hframe₁ hcalls₁).trans (h₁₂.2.2.trans h₂₃.2.2)⟩

end PstakeNative.LiquidStakeIBC
