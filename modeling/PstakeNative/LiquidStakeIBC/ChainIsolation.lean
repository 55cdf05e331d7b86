import PstakeNative.LiquidStakeIBC.EpochRun

/-! # One chain's failure and the other chains

The workflows at the end of an epoch loop over the registered chains and submit interchain
transactions, whose submission may fail. `UndelegationWorkflow` handles a failed submission
within the failing chain's pass, so every eligible chain still gets its transaction, whatever the
other chains' outcomes. `DepositWorkflow` and `LSMWorkflow` likewise `continue` past a failed
transfer, so every eligible deposit gets its own, and `RewardsWorkflow` past a failed withdrawal.
`ValidatorUndelegationWorkflow` `return`s on the first failed forced undelegation instead: the
chains after the failing one are not visited in that epoch.
-/

namespace PstakeNative.LiquidStakeIBC

/-- In a loop whose iterations only add remote calls, where the iteration for an item makes a
call for it when the item is eligible and keeps the eligibility of items of other keys, every
item eligible at the start gets its call. The loop's accumulator holds the remote calls under
`calls`. -/
theorem foldlM_reaches {σ β κ : Type} (calls : σ → List RemoteCall)
    {f : σ → β → Except KeeperError σ} {l : List β}
    (key : β → κ) (hl : (l.map key).Nodup) (E : σ → β → Prop) (C : β → RemoteCall → Prop)
    (hgrow : ∀ a b a', f a b = .ok a' → calls a <+: calls a')
    (hkeep : ∀ a b a' b', f a b = .ok a' → key b' ≠ key b → E a b' → E a' b')
    (hcall : ∀ a b a', f a b = .ok a' → E a b → ∃ c ∈ calls a', C b c)
    {s s' : σ} (h : l.foldlM f s = .ok s') : ∀ b ∈ l, E s b → ∃ c ∈ calls s', C b c := by
  induction l generalizing s with
  | nil => exact fun b hb => absurd hb (List.not_mem_nil b)
  | cons b₀ rest ih =>
    rw [List.map_cons, List.nodup_cons] at hl
    obtain ⟨s₁, h₁, h₂⟩ := bind_eq_ok.mp h
    intro b hb hE
    rcases List.mem_cons.mp hb with rfl | hb
    · obtain ⟨c, hc, hC⟩ := hcall s b s₁ h₁ hE
      have hpre : calls s₁ <+: calls s' :=
        foldlM_rel (fun a a' => calls a <+: calls a') (fun _ => List.prefix_refl _)
          (fun _ _ _ h₁ h₂ => h₁.trans h₂) (fun a b a' _ h => hgrow a b a' h) h₂
      exact ⟨c, hpre.subset hc, hC⟩
    · exact ih hl.2 h₂ b hb (hkeep s b₀ s₁ b h₁
        (fun he => hl.1 (he ▸ List.mem_map_of_mem key hb)) hE)

variable (env : Env)

/-! ## Two chains with a validator due for a forced undelegation

Chains `A` and `B`, registered in that order, each with one validator whose unbonding started at
epoch 1, so that both are due at epoch 10; every epoch is an unbonding epoch, and only the
undelegation epoch is called `day`. -/

def forceUnbondEnv (icaOutcome : Nat → Option String) : Env :=
  { exampleEnv with
    delegationEpoch := "week", rewardsEpochIdentifier := "week",
    redelegationEpochIdentifer := "week", isUnbondingEpoch := fun _ _ => true, icaOutcome }

/-- The collaborator fails the first transaction and carries out every later one. -/
def failFirst (n : Nat) : Option String := if n = 0 then none else some "ica-1"

def forceUnbondChain (chainId : String) : HostChain :=
  { chainC with chainId, validators := [⟨"val-" ++ chainId, 100, 1⟩] }

def twoChainState : State :=
  State.genesis ((Table.empty.set (forceUnbondChain "A")).set (forceUnbondChain "B")) 10

/-! ## The undelegation workflow -/

/-- A chain's undelegation pass writes only its own chain's unbondings. -/
theorem undelegationWorkflowChain_getUnbonding {epoch : Int} {s s' : State} {hc : HostChain}
    (h : undelegationWorkflowChain env epoch s hc = .ok s') {c : String} (hne : c ≠ hc.chainId)
    (e : Int) : s'.getUnbonding c e = s.getUnbonding c e := by
  rcases undelegationWorkflowChain_cases env h with
    rfl | ⟨-, u, hu, rfl | ⟨msgs, -, rfl | ⟨sequenceId, ev, rfl⟩⟩⟩
  · rfl
  all_goals
    have hkey := ((s.unbondings.get?_eq_some_iff).mp hu).2
    simp only [failUnbonding, State.getUnbonding, State.emit_unbondings,
      State.setUnbonding_unbondings, State.recordCall_unbondings, Table.get?_set]
    exact if_neg fun he => hne (Prod.mk.inj (hkey.symm.trans he)).1.symm

/-- A chain's undelegation pass submits its bucket's undelegation whenever the chain is active,
the epoch is one of its unbonding epochs, and the bucket holds a positive amount whose messages
are generated; the outcome of the submission does not matter. -/
theorem undelegationWorkflowChain_submits {epoch : Int} {s s' : State} {hc : HostChain}
    {u : Unbonding} {msgs : List ICAMsg} (h : undelegationWorkflowChain env epoch s hc = .ok s')
    (hact : hc.active = true) (hep : env.isUnbondingEpoch hc.unbondingFactor epoch = true)
    (hu : s.getUnbonding hc.chainId (env.currentUnbondingEpoch hc.unbondingFactor epoch) = some u)
    (hpos : 0 < u.unbondAmount.amount)
    (hmsgs : env.generateUndelegateMessages hc u.unbondAmount.amount = some msgs) :
    ⟨hc.chainId, none, .icaTx hc.connectionId hc.delegationAccount.owner msgs⟩ ∈ s'.remoteCalls := by
  simp only [undelegationWorkflowChain, hact, hep, hu, hpos, hmsgs, Bool.not_true, decide_True,
    Bool.false_eq_true, if_false, State.generateAndExecuteICATx] at h
  rcases hica : env.icaOutcome s.calls with _ | sequenceId <;> simp only [hica] at h
  · cases pure_eq_ok.mp h
    simp [failUnbonding]
  · simp only [bind_eq_ok, liftPanic_eq_ok] at h
    obtain ⟨_, -, _, -, h⟩ := h
    cases pure_eq_ok.mp h
    simp

/-- `UndelegationWorkflow` reaches every chain: whatever the outcomes of the other chains'
transactions, every registered chain that is active, on one of its unbonding epochs, with a
positive bucket whose undelegation messages are generated, gets its transaction submitted. -/
theorem undelegationWorkflow_reaches_every_chain {epoch : Int} {s s' : State}
    (h : undelegationWorkflow env epoch s = .ok s') {hc : HostChain}
    (hhc : hc ∈ s.getAllHostChains) (hact : hc.active = true)
    (hep : env.isUnbondingEpoch hc.unbondingFactor epoch = true) {u : Unbonding}
    (hu : s.getUnbonding hc.chainId (env.currentUnbondingEpoch hc.unbondingFactor epoch) = some u)
    (hpos : 0 < u.unbondAmount.amount) {msgs : List ICAMsg}
    (hmsgs : env.generateUndelegateMessages hc u.unbondAmount.amount = some msgs) :
    ⟨hc.chainId, none, .icaTx hc.connectionId hc.delegationAccount.owner msgs⟩ ∈ s'.remoteCalls := by
  -- the pass of `hc` still finds the bucket it had at the start: the passes before it wrote
  -- only their own chains' unbondings
  obtain ⟨c, hmem, rfl⟩ := foldlM_reaches State.remoteCalls HostChain.chainId s.hostChains.nodup
    (fun a hc' => hc' = hc ∧ a.getUnbonding hc.chainId
      (env.currentUnbondingEpoch hc.unbondingFactor epoch) = some u)
    (fun _ c => c = ⟨hc.chainId, none, .icaTx hc.connectionId hc.delegationAccount.owner msgs⟩)
    (fun _ _ _ h => (undelegationWorkflowChain_frame env h).2.isPrefix)
    (fun a hc' a' hc'' h hne ⟨he, hv⟩ => by
      subst he
      exact ⟨rfl, (undelegationWorkflowChain_getUnbonding env h hne _).trans hv⟩)
    (fun a hc' a' h ⟨he, hv⟩ => by
      subst he
      exact ⟨_, undelegationWorkflowChain_submits env h hact hep hv hpos hmsgs, rfl⟩)
    h hc hhc ⟨rfl, hu⟩
  exact hmem

/-- An undelegation bucket of 50 for epoch 10. -/
def unbondingBucket (chainId : String) : Unbonding :=
  ⟨chainId, 10, ⟨"uatom", 0⟩, ⟨"uatom", 50⟩, "", .unbondingPending⟩

def twoBucketState : State :=
  (twoChainState.setUnbonding (unbondingBucket "A")).setUnbonding (unbondingBucket "B")

/-- With `A`'s transaction failing, `UndelegationWorkflow` still submits `B`'s. -/
theorem undelegationWorkflow_reaches_every_chain_failFirst :
    ∃ s', undelegationWorkflow (forceUnbondEnv failFirst) 10 twoBucketState = .ok s' ∧
      ⟨"B", none, .icaTx "connection-0" "owner" []⟩ ∈ s'.remoteCalls :=
  ⟨_, rfl, @undelegationWorkflow_reaches_every_chain (forceUnbondEnv failFirst) 10 twoBucketState _
    rfl (forceUnbondChain "B") (by decide) rfl rfl (unbondingBucket "B") rfl (by decide) [] rfl⟩

/-! ## The deposit workflow -/

/-- The transfer the deposit workflows build reads the state's block time only. -/
theorem depositTransfer_of_blockTime {s s' : State} (h : s'.blockTime = s.blockTime)
    (hc : HostChain) (token : Coin) : depositTransfer env s' hc token = depositTransfer env s hc token := by
  simp only [depositTransfer, timeoutTimestamp, h]

/-- A deposit's step keeps the registry and the block time, and only appends remote calls. -/
theorem depositWorkflowStep_frame {n : Int} {d : Deposit} {s s' : State}
    (h : depositWorkflowStep env n d s = .ok s') :
    s'.hostChains = s.hostChains ∧ s'.blockTime = s.blockTime ∧ s.remoteCalls <+: s'.remoteCalls := by
  rcases depositWorkflowStep_cases env h with rfl | ⟨-, -, rfl⟩ | ⟨hc, r, s₁, -, -, -, hsub, hr⟩
  · exact ⟨rfl, rfl, List.prefix_refl _⟩
  · exact ⟨rfl, rfl, List.prefix_refl _⟩
  rcases submitTransfer_cases s env hsub with ⟨-, rfl | rfl⟩ | ⟨-, rfl⟩ <;>
    rcases hr with ⟨-, rfl⟩ | ⟨m, e, -, rfl⟩ <;> simp

/-- The step of a deposit with a positive amount whose chain is registered and active submits
the deposit's transfer, whatever the transfer handler answers. -/
theorem depositWorkflowStep_submits {n : Int} {d : Deposit} {s s' : State} {hc : HostChain}
    (h : depositWorkflowStep env n d s = .ok s') (hhc : s.getHostChain d.chainId = some hc)
    (hact : hc.active = true) (hpos : 0 < d.amount.amount) :
    ⟨hc.chainId, some (.deposit d.key), .transfer (depositTransfer env s hc d.amount)⟩ ∈
      s'.remoteCalls := by
  simp only [depositWorkflowStep, hhc, hact, not_le.mpr hpos, if_false, Bool.not_true,
    Bool.false_eq_true] at h
  rcases hsub : s.submitTransfer env hc.chainId (.deposit d.key)
    (depositTransfer env s hc d.amount) with ⟨r, s₁⟩
  have hmem : ⟨hc.chainId, some (.deposit d.key), .transfer (depositTransfer env s hc d.amount)⟩ ∈
      s₁.remoteCalls := by
    rcases submitTransfer_cases s env hsub with ⟨-, rfl | rfl⟩ | ⟨-, rfl⟩ <;> simp
  rw [hsub] at h
  cases r with
  | none => rwa [← pure_eq_ok.mp h]
  | some n =>
    simp only [bind_eq_ok, liftPanic_eq_ok] at h
    obtain ⟨_, -, h⟩ := h
    rw [← pure_eq_ok.mp h]
    simpa using hmem

/-- `DepositWorkflow` reaches every deposit: whatever the transfer handler answers for the other
deposits, every pending deposit of an epoch up to the current one, with a positive amount and a
registered active chain, has its transfer submitted, from the deposit module account to the
chain's delegation account on the chain's channel. -/
theorem depositWorkflow_reaches_every_deposit {epoch : Int} {s s' : State}
    (h : depositWorkflow env epoch s = .ok s') {d : Deposit}
    (hd : d ∈ s.getPendingDepositsBeforeEpoch epoch) {hc : HostChain}
    (hhc : s.getHostChain d.chainId = some hc) (hact : hc.active = true)
    (hpos : 0 < d.amount.amount) :
    ⟨hc.chainId, some (.deposit d.key), .transfer (depositTransfer env s hc d.amount)⟩ ∈
      s'.remoteCalls := by
  -- the step of `d` still finds its chain, and builds the same transfer: the steps before it
  -- keep the registry and the block time
  obtain ⟨c, hmem, rfl⟩ := foldlM_reaches State.remoteCalls Deposit.key (s.deposits.nodup_filter _)
    (fun a d' => d' = d ∧ a.getHostChain d.chainId = some hc ∧ a.blockTime = s.blockTime)
    (fun _ c => c = ⟨hc.chainId, some (.deposit d.key), .transfer (depositTransfer env s hc d.amount)⟩)
    (fun _ _ _ h => (depositWorkflowStep_frame env h).2.2)
    (fun a _ a' _ h _ ⟨he, hv, ht⟩ => by
      obtain ⟨hh, hb, -⟩ := depositWorkflowStep_frame env h
      exact ⟨he, by rwa [State.getHostChain, hh], hb.trans ht⟩)
    (fun a _ a' h ⟨he, hv, ht⟩ => by
      rw [he] at h
      exact ⟨_, depositTransfer_of_blockTime env ht hc d.amount ▸
        depositWorkflowStep_submits env h hv hact hpos, rfl⟩)
    h d hd ⟨rfl, hhc, rfl⟩
  exact hmem

/-- The transfer handler fails the first transfer and sends every later one. -/
def failFirstTransferEnv : Env :=
  { exampleEnv with transferOutcome := fun n => if n = 0 then .handlerError else .sent }

/-- A pending deposit of 10 made at epoch 9. -/
def pendingDeposit (chainId : String) : Deposit :=
  ⟨chainId, ⟨"ibc/ATOM", 10⟩, 9, .depositPending, ""⟩

/-- Chains `A` and `B` at delegation epoch 10, each with its pending deposit of epoch 9. -/
def twoDepositState : State :=
  (twoChainState.setDeposit (pendingDeposit "A")).setDeposit (pendingDeposit "B")

/-- With `A`'s transfer failing, `DepositWorkflow` still submits `B`'s. -/
theorem depositWorkflow_reaches_every_deposit_failFirst :
    ∃ s', depositWorkflow failFirstTransferEnv 10 twoDepositState = .ok s' ∧
      ⟨"B", some (.deposit ("B", 9)), .transfer (depositTransfer failFirstTransferEnv
        twoDepositState (forceUnbondChain "B") ⟨"ibc/ATOM", 10⟩)⟩ ∈ s'.remoteCalls :=
  ⟨_, rfl, @depositWorkflow_reaches_every_deposit failFirstTransferEnv 10 twoDepositState _ rfl
    (pendingDeposit "B") (by decide) (forceUnbondChain "B") rfl rfl (by decide)⟩

/-! ## The LSM workflow -/

/-- An LSM deposit's step keeps the block time, only appends remote calls, and writes only the
deposit's own row. -/
theorem lsmWorkflowStep_frame {hc : HostChain} {a a' : State × LegacyDec} {d : LSMDeposit}
    (h : lsmWorkflowStep env hc a d = .ok a') :
    a'.1.blockTime = a.1.blockTime ∧ a.1.remoteCalls <+: a'.1.remoteCalls ∧
      ∀ k, k ≠ d.key → a'.1.lsmDeposits.get? k = a.1.lsmDeposits.get? k := by
  obtain ⟨s, total⟩ := a
  obtain ⟨s', total'⟩ := a'
  obtain ⟨token, r, s₁, hsub, hr⟩ := lsmWorkflowStep_cases env h
  rcases submitTransfer_cases s env hsub with ⟨-, rfl | rfl⟩ | ⟨-, rfl⟩ <;>
    rcases hr with ⟨-, rfl⟩ | ⟨n, -, rfl⟩ <;>
    simp [State.updateLSMDepositsStateAndSequence, Table.get?_set]
  all_goals exact fun _ _ _ hk he => absurd (he.symm.trans rfl) hk

/-- An LSM deposit's step submits the deposit's transfer, whatever the transfer handler answers. -/
theorem lsmWorkflowStep_submits {hc : HostChain} {a a' : State × LegacyDec} {d : LSMDeposit}
    (h : lsmWorkflowStep env hc a d = .ok a') :
    ∃ token, ⟨hc.chainId, some (.lsmDeposit d.key), .transfer (depositTransfer env a.1 hc token)⟩ ∈
      a'.1.remoteCalls := by
  obtain ⟨s, total⟩ := a
  obtain ⟨s', total'⟩ := a'
  obtain ⟨token, r, s₁, hsub, hr⟩ := lsmWorkflowStep_cases env h
  refine ⟨token, ?_⟩
  rcases submitTransfer_cases s env hsub with ⟨-, rfl | rfl⟩ | ⟨-, rfl⟩ <;>
    rcases hr with ⟨-, rfl⟩ | ⟨n, -, rfl⟩ <;> simp [State.updateLSMDepositsStateAndSequence]

/-- A chain's LSM pass keeps the block time, only appends remote calls, and writes only the
chain's own LSM deposits. -/
theorem lsmWorkflowChain_frame {s s' : State} {hc : HostChain}
    (h : lsmWorkflowChain env s hc = .ok s') :
    s'.blockTime = s.blockTime ∧ s.remoteCalls <+: s'.remoteCalls ∧
      ∀ k : String × String × String, k.1 ≠ hc.chainId → s'.lsmDeposits.get? k = s.lsmDeposits.get? k := by
  rcases lsmWorkflowChain_cases env h with rfl | ⟨-, -, s₁, total, hloop, rfl⟩
  · exact ⟨rfl, List.prefix_refl _, fun _ _ => rfl⟩
  simpa using foldlM_rel (fun a a' : State × LegacyDec => a'.1.blockTime = a.1.blockTime ∧
      a.1.remoteCalls <+: a'.1.remoteCalls ∧ ∀ k : String × String × String, k.1 ≠ hc.chainId →
        a'.1.lsmDeposits.get? k = a.1.lsmDeposits.get? k)
    (fun _ => ⟨rfl, List.prefix_refl _, fun _ _ => rfl⟩)
    (fun _ _ _ h₁ h₂ => ⟨h₂.1.trans h₁.1, h₁.2.1.trans h₂.2.1,
      fun k hk => (h₂.2.2 k hk).trans (h₁.2.2 k hk)⟩)
    (fun a d a' hd h => by
      have hdc : d.chainId = hc.chainId := by
        simp only [State.getTransferableLSMDeposits, List.mem_filter, decide_eq_true_eq] at hd
        exact hd.2.1
      obtain ⟨hb, hp, hk⟩ := lsmWorkflowStep_frame env h
      exact ⟨hb, hp, fun k hk₁ => hk k fun he => hk₁ (by rw [he]; exact hdc)⟩) hloop

/-- The LSM pass of an active chain with the LSM flag set submits the transfer of each of its
transferable LSM deposits, whatever the transfer handler answers for the others. -/
theorem lsmWorkflowChain_submits {s s' : State} {hc : HostChain}
    (h : lsmWorkflowChain env s hc = .ok s') (hact : hc.active = true) (hlsm : hc.flags.lsm = true)
    {d : LSMDeposit} (hd : d ∈ s.getTransferableLSMDeposits hc.chainId) :
    ∃ token, ⟨hc.chainId, some (.lsmDeposit d.key), .transfer (depositTransfer env s hc token)⟩ ∈
      s'.remoteCalls := by
  simp only [lsmWorkflowChain, hact, hlsm, Bool.not_true, Bool.or_false, Bool.false_eq_true,
    if_false] at h
  obtain ⟨⟨s₁, total⟩, hloop, h⟩ := bind_eq_ok.mp h
  cases pure_eq_ok.mp h
  obtain ⟨c, hmem, token, rfl⟩ := foldlM_reaches (·.1.remoteCalls) LSMDeposit.key
    (s.lsmDeposits.nodup_filter _) (fun a d' => d' = d ∧ a.1.blockTime = s.blockTime)
    (fun _ c => ∃ token,
      c = ⟨hc.chainId, some (.lsmDeposit d.key), .transfer (depositTransfer env s hc token)⟩)
    (fun _ _ _ h => (lsmWorkflowStep_frame env h).2.1)
    (fun _ _ _ _ h _ ⟨he, hb⟩ => ⟨he, (lsmWorkflowStep_frame env h).1.trans hb⟩)
    (fun a _ a' h ⟨he, hb⟩ => by
      rw [he] at h
      obtain ⟨token, hmem⟩ := lsmWorkflowStep_submits env h
      exact ⟨_, hmem, token, by rw [depositTransfer_of_blockTime env hb]⟩)
    hloop d hd ⟨rfl, rfl⟩
  exact ⟨token, by simpa using hmem⟩

/-- `LSMWorkflow` reaches every LSM deposit: whatever the transfer handler answers for the
others, every transferable LSM deposit of a registered active chain with the LSM flag set has its
own transfer submitted, from the deposit module account to the chain's delegation account on the
chain's channel. -/
theorem lsmWorkflow_reaches_every_deposit {s s' : State} (h : lsmWorkflow env s = .ok s')
    {hc : HostChain} (hhc : hc ∈ s.getAllHostChains) (hact : hc.active = true)
    (hlsm : hc.flags.lsm = true) {d : LSMDeposit} (hd : d ∈ s.getTransferableLSMDeposits hc.chainId) :
    ∃ token, ⟨hc.chainId, some (.lsmDeposit d.key), .transfer (depositTransfer env s hc token)⟩ ∈
      s'.remoteCalls := by
  have hd' := hd
  simp only [State.getTransferableLSMDeposits, List.mem_filter, decide_eq_true_eq] at hd'
  obtain ⟨hrow, hdc, hpending⟩ := hd'
  -- the pass of `hc` still finds the deposit and the block time it had at the start: the passes
  -- before it wrote only their own chains' LSM deposits
  obtain ⟨c, hmem, token, rfl⟩ := foldlM_reaches State.remoteCalls HostChain.chainId
    s.hostChains.nodup
    (fun a hc' => hc' = hc ∧ a.lsmDeposits.get? d.key = some d ∧ a.blockTime = s.blockTime)
    (fun _ c => ∃ token,
      c = ⟨hc.chainId, some (.lsmDeposit d.key), .transfer (depositTransfer env s hc token)⟩)
    (fun _ _ _ h => (lsmWorkflowChain_frame env h).2.1)
    (fun _ _ _ _ h hne ⟨he, hg, hb⟩ => by
      obtain ⟨hb', -, hk⟩ := lsmWorkflowChain_frame env h
      exact ⟨he, (hk d.key (hdc.trans_ne (he ▸ hne))).trans hg, hb'.trans hb⟩)
    (fun a _ a' h ⟨he, hg, hb⟩ => by
      rw [he] at h
      have hda : d ∈ a.getTransferableLSMDeposits hc.chainId := by
        simp [State.getTransferableLSMDeposits, Table.mem_rows_iff, hg, hdc, hpending]
      obtain ⟨token, hmem⟩ := lsmWorkflowChain_submits env h hact hlsm hda
      exact ⟨_, hmem, token, by rw [depositTransfer_of_blockTime env hb]⟩)
    h hc hhc ⟨rfl, (s.lsmDeposits.mem_rows_iff).mp hrow, rfl⟩
  exact ⟨token, hmem⟩

def lsmChain (chainId : String) : HostChain := { forceUnbondChain chainId with flags := ⟨true⟩ }

/-- A pending deposit of 10 tokenized shares. -/
def lsmShares (chainId : String) : LSMDeposit :=
  ⟨chainId, "cosmos1user", "valoper1/1", "ibc/LSM", ⟨10 * 10 ^ 18⟩, .depositPending, ""⟩

/-- Chains `A` and `B` with the LSM flag set, each with one pending LSM deposit. -/
def twoLSMState : State :=
  ((State.genesis ((Table.empty.set (lsmChain "A")).set (lsmChain "B")) 10).setLSMDeposit
    (lsmShares "A")).setLSMDeposit (lsmShares "B")

set_option exponentiation.threshold 320 in
/-- With `A`'s transfer failing, `LSMWorkflow` still submits `B`'s. -/
theorem lsmWorkflow_reaches_every_deposit_failFirst :
    ∃ s', lsmWorkflow failFirstTransferEnv twoLSMState = .ok s' ∧ ∃ token,
      ⟨"B", some (.lsmDeposit ("B", "cosmos1user", "valoper1/1")), .transfer (depositTransfer
        failFirstTransferEnv twoLSMState (lsmChain "B") token)⟩ ∈ s'.remoteCalls :=
  ⟨_, rfl, @lsmWorkflow_reaches_every_deposit failFirstTransferEnv twoLSMState _ rfl (lsmChain "B")
    (by decide) rfl rfl (lsmShares "B") (by decide)⟩

/-! ## The rewards workflow -/

/-- The rewards pass of an active chain with a delegated validator submits the chain's reward
withdrawals; the outcome of the submission does not matter. -/
theorem rewardsWorkflowChain_submits {epoch : Int} (s : State) {hc : HostChain}
    (hact : hc.active = true) (hmsgs : rewardsMessages hc ≠ []) :
    ⟨hc.chainId, none, .icaTx hc.connectionId hc.delegationAccount.owner (rewardsMessages hc)⟩ ∈
      (rewardsWorkflowChain env epoch s hc).remoteCalls := by
  simp only [rewardsWorkflowChain, hact, hmsgs, Bool.not_true, Bool.false_eq_true, ne_eq,
    not_false_eq_true, if_false, if_true, State.generateAndExecuteICATx]
  rcases env.icaOutcome s.calls with _ | _
  · simp
  · exact (rewardsAccountQueries_frame env hc _).2.isPrefix.subset (by simp)

/-- `RewardsWorkflow` reaches every chain: whatever the outcomes of the other chains'
withdrawals, every registered active chain with a delegated validator gets its withdrawal
transaction submitted. -/
theorem rewardsWorkflow_reaches_every_chain (epoch : Int) (s : State) {hc : HostChain}
    (hhc : hc ∈ s.getAllHostChains) (hact : hc.active = true) (hmsgs : rewardsMessages hc ≠ []) :
    ⟨hc.chainId, none, .icaTx hc.connectionId hc.delegationAccount.owner (rewardsMessages hc)⟩ ∈
      (rewardsWorkflow env epoch s).remoteCalls := by
  obtain ⟨c, hmem, rfl⟩ := foldlM_reaches State.remoteCalls HostChain.chainId s.hostChains.nodup (fun _ hc' => hc' = hc)
    (fun _ c => c = ⟨hc.chainId, none, .icaTx hc.connectionId hc.delegationAccount.owner
      (rewardsMessages hc)⟩)
    (fun a hc' a' h => by
      cases pure_eq_ok.mp h
      exact (rewardsWorkflowChain_frame env epoch a hc').2.isPrefix)
    (fun _ _ _ _ _ _ he => he)
    (fun a hc' a' h he => by
      subst he
      cases pure_eq_ok.mp h
      exact ⟨_, rewardsWorkflowChain_submits env a hact hmsgs, rfl⟩)
    (foldlM_pure_eq_ok _ _ s) hc hhc rfl
  exact hmem

/-- With `A`'s withdrawal failing, `RewardsWorkflow` still submits `B`'s. -/
theorem rewardsWorkflow_reaches_every_chain_failFirst :
    forceUnbondChain "B" ∈ twoChainState.getAllHostChains ∧
      rewardsMessages (forceUnbondChain "B") ≠ [] ∧
      ⟨"B", none, .icaTx "connection-0" "owner" (rewardsMessages (forceUnbondChain "B"))⟩ ∈
        (rewardsWorkflow (forceUnbondEnv failFirst) 10 twoChainState).remoteCalls :=
  ⟨by decide, by decide, @rewardsWorkflow_reaches_every_chain (forceUnbondEnv failFirst) 10
    twoChainState (forceUnbondChain "B") (by decide) rfl (by decide)⟩

/-! ## The validator undelegation workflow -/

/-- `B`'s validator is due, and `B`'s forced undelegation is submitted when `A`'s succeeds; when
`A`'s fails, the workflow `return`s and `B`'s is never submitted. -/
theorem validatorUndelegation_abandons_later_chains :
    forceUnbondDue (forceUnbondEnv failFirst) 10 ⟨"val-B", 100, 1⟩ = true ∧
    (step (forceUnbondEnv failFirst) twoChainState (.afterEpochEnd "day" 10)).remoteCalls.map
      (·.chainId) = ["A"] ∧
    (step (forceUnbondEnv fun _ => some "ica-1") twoChainState
      (.afterEpochEnd "day" 10)).remoteCalls.map (·.chainId) = ["A", "B"] := by
  decide

end PstakeNative.LiquidStakeIBC
