import PstakeNative.LiquidStakeIBC.Store

/-! # Epoch workflows

`BeforeEpochStart` and `AfterEpochEnd` and the six workflows they run. A workflow returns no
error, but it can panic inside `sdk.NewCoin` or an amount operation; the epochs module catches
the panic and drops every write of the hook, which is the `Except` error here.
-/

namespace PstakeNative.LiquidStakeIBC

/-- A panic raised by an SDK amount operation. -/
def liftPanic {α : Type} (x : Except Panic α) : Except KeeperError α := x.mapError .panic

@[simp]
theorem liftPanic_eq_ok {α : Type} {x : Except Panic α} {a : α} : liftPanic x = .ok a ↔ x = .ok a := by
  cases x <;> simp [liftPanic, Except.mapError]

/-- `ibctransfertypes.PortID`. -/
def transferPortID : String := "transfer"

/-- `uint64(ctx.BlockTime().UnixNano() + IBCTimeoutTimestamp.Nanoseconds())`. -/
def timeoutTimestamp (env : Env) (s : State) : Nat :=
  ((s.blockTime + env.ibcTimeoutTimestamp) % 2 ^ 64).toNat

/-- The transfer the deposit workflows send: from the deposit module account to the chain's
delegation account, on the chain's transfer channel, with an empty memo. -/
def depositTransfer (env : Env) (s : State) (hc : HostChain) (token : Coin) : MsgTransfer where
  sourcePort := transferPortID
  sourceChannel := hc.channelId
  token := token
  sender := env.depositModuleAddress
  receiver := hc.delegationAccount.address
  timeoutTimestamp := timeoutTimestamp env s
  memo := ""

variable (env : Env)

/-! ## Deposit workflow -/

/-- One deposit of `DepositWorkflow`: skip an unregistered chain, drop an empty deposit of an
earlier epoch, skip an inactive chain, and otherwise send the whole amount. -/
def depositWorkflowStep (epoch : Int) (deposit : Deposit) (s : State) :
    Except KeeperError State :=
  match s.getHostChain deposit.chainId with
  | none => pure s
  | some hc =>
    if deposit.amount.amount ≤ 0 then
      pure (if deposit.epoch < epoch then s.deleteDeposit deposit else s)
    else if !hc.active then pure s
    else
      match s.submitTransfer env hc.chainId (.deposit deposit.key)
          (depositTransfer env s hc deposit.amount) with
      | (none, s) => pure s
      | (some sequence, s) => do
        let deposit := { deposit with
          state := .depositSent, ibcSequenceId := getTransactionSequenceID hc.channelId sequence }
        let s := s.setDeposit deposit
        let total ← liftPanic (newCoin env.validDenom hc.hostDenom deposit.amount.amount)
        pure (s.emit (.delegationWorkflow hc.chainId deposit.epoch total deposit.ibcSequenceId))

/-- What one deposit's step can do: nothing, drop the deposit when it is empty and of an earlier
epoch, or submit its transfer for an active chain, marking it sent when the packet's sequence
is known. -/
theorem depositWorkflowStep_cases {epoch : Int} {deposit : Deposit} {s s' : State}
    (h : depositWorkflowStep env epoch deposit s = .ok s') :
    s' = s ∨
    (deposit.amount.amount ≤ 0 ∧ deposit.epoch < epoch ∧ s' = s.deleteDeposit deposit) ∨
    ∃ hc r s₁, s.getHostChain deposit.chainId = some hc ∧ 0 < deposit.amount.amount ∧
      hc.active = true ∧
      s.submitTransfer env hc.chainId (.deposit deposit.key)
        (depositTransfer env s hc deposit.amount) = (r, s₁) ∧
      (r = none ∧ s' = s₁ ∨ ∃ n e, r = some n ∧ s' = (s₁.setDeposit { deposit with
        state := .depositSent, ibcSequenceId := getTransactionSequenceID hc.channelId n }).emit e) := by
  unfold depositWorkflowStep at h
  split at h
  · exact .inl (pure_eq_ok.mp h).symm
  next hc hhc =>
  by_cases hamt : deposit.amount.amount ≤ 0
  · rw [if_pos hamt, pure_eq_ok] at h
    split_ifs at h with hep
    · exact .inr (.inl ⟨hamt, hep, h.symm⟩)
    · exact .inl h.symm
  rw [if_neg hamt] at h
  cases hact : hc.active
  · simp only [hact, Bool.not_false, if_true, pure_eq_ok] at h
    exact .inl h.symm
  simp only [hact] at h
  rw [if_neg (by decide)] at h
  right; right
  rcases hsub : s.submitTransfer env hc.chainId (.deposit deposit.key)
    (depositTransfer env s hc deposit.amount) with ⟨r, s₁⟩
  rw [hsub] at h
  refine ⟨hc, r, s₁, hhc, by omega, hact, hsub, ?_⟩
  cases r with
  | none => exact .inl ⟨rfl, (pure_eq_ok.mp h).symm⟩
  | some n =>
    simp only [bind_eq_ok, liftPanic_eq_ok] at h
    obtain ⟨_, -, h⟩ := h
    exact .inr ⟨n, _, rfl, (pure_eq_ok.mp h).symm⟩

def depositWorkflow (epoch : Int) (s : State) : Except KeeperError State :=
  (s.getPendingDepositsBeforeEpoch epoch).foldlM (fun s d => depositWorkflowStep env epoch d s) s

/-! ## LSM workflow -/

/-- One transferable LSM deposit: send its shares, truncated to whole tokens, on its own. -/
def lsmWorkflowStep (hc : HostChain) (acc : State × LegacyDec) (deposit : LSMDeposit) :
    Except KeeperError (State × LegacyDec) := do
  let (s, total) := acc
  let amount ← liftPanic deposit.shares.truncateInt
  let token ← liftPanic (newCoin env.validDenom deposit.ibcDenom amount)
  match s.submitTransfer env hc.chainId (.lsmDeposit deposit.key) (depositTransfer env s hc token) with
  | (none, s) => pure (s, total)
  | (some sequence, s) => do
    let s := s.updateLSMDepositsStateAndSequence [deposit] .depositSent
      (getTransactionSequenceID hc.channelId sequence)
    let total ← liftPanic (total.add deposit.shares)
    pure (s, total)

/-- One LSM deposit's step submits its transfer, and marks it sent when the packet's sequence is
known. -/
theorem lsmWorkflowStep_cases {hc : HostChain} {s s' : State} {total total' : LegacyDec}
    {deposit : LSMDeposit} (h : lsmWorkflowStep env hc (s, total) deposit = .ok (s', total')) :
    ∃ token r s₁, s.submitTransfer env hc.chainId (.lsmDeposit deposit.key)
        (depositTransfer env s hc token) = (r, s₁) ∧
      (r = none ∧ s' = s₁ ∨ ∃ n, r = some n ∧ s' = s₁.updateLSMDepositsStateAndSequence [deposit]
        .depositSent (getTransactionSequenceID hc.channelId n)) := by
  simp only [lsmWorkflowStep, bind_eq_ok, liftPanic_eq_ok] at h
  obtain ⟨_, -, token, -, h⟩ := h
  rcases hsub : s.submitTransfer env hc.chainId (.lsmDeposit deposit.key)
    (depositTransfer env s hc token) with ⟨r, s₁⟩
  rw [hsub] at h
  refine ⟨token, r, s₁, hsub, ?_⟩
  cases r with
  | none => exact .inl ⟨rfl, (Prod.mk.inj (pure_eq_ok.mp h)).1.symm⟩
  | some n =>
    simp only [bind_eq_ok, liftPanic_eq_ok, pure_eq_ok] at h
    obtain ⟨_, -, h⟩ := h
    exact .inr ⟨n, rfl, (Prod.mk.inj h).1.symm⟩

def lsmWorkflowChain (s : State) (hc : HostChain) : Except KeeperError State :=
  if !hc.active || !hc.flags.lsm then pure s
  else do
    let (s, total) ← (s.getTransferableLSMDeposits hc.chainId).foldlM (lsmWorkflowStep env hc)
      (s, LegacyDec.zero)
    pure (s.emit (.lsmWorkflow hc.chainId total))

/-- A chain's LSM pass runs only for an active chain with the LSM flag set. -/
theorem lsmWorkflowChain_cases {hc : HostChain} {s s' : State}
    (h : lsmWorkflowChain env s hc = .ok s') :
    s' = s ∨ hc.active = true ∧ hc.flags.lsm = true ∧ ∃ s₁ total,
      (s.getTransferableLSMDeposits hc.chainId).foldlM (lsmWorkflowStep env hc)
        (s, LegacyDec.zero) = .ok (s₁, total) ∧ s' = s₁.emit (.lsmWorkflow hc.chainId total) := by
  unfold lsmWorkflowChain at h
  split_ifs at h with hskip
  · exact .inl (pure_eq_ok.mp h).symm
  simp only [Bool.or_eq_true, Bool.not_eq_true', not_or, Bool.not_eq_false] at hskip
  obtain ⟨⟨s₁, total⟩, hloop, h⟩ := bind_eq_ok.mp h
  exact .inr ⟨hskip.1, hskip.2, s₁, total, hloop, (pure_eq_ok.mp h).symm⟩

def lsmWorkflow (s : State) : Except KeeperError State :=
  s.getAllHostChains.foldlM (lsmWorkflowChain env) s

/-! ## Undelegation workflow -/

/-- Mark an unbonding failed: no undelegation was initiated and none will be retried. -/
def failUnbonding (epoch : Int) (hc : HostChain) (unbonding : Unbonding) (s : State) : State :=
  (s.setUnbonding { unbonding with state := .unbondingFailed }).emit
    (.unsuccessfulUndelegationInitiation hc.chainId epoch)

/-- One chain of `UndelegationWorkflow`: undelegate its epoch bucket's total in one transaction. -/
def undelegationWorkflowChain (epoch : Int) (s : State) (hc : HostChain) :
    Except KeeperError State :=
  if !hc.active then pure s
  else if !env.isUnbondingEpoch hc.unbondingFactor epoch then pure s
  else
    match s.getUnbonding hc.chainId (env.currentUnbondingEpoch hc.unbondingFactor epoch) with
    | none => pure s
    | some unbonding =>
      if !(unbonding.unbondAmount.amount > 0) then pure s
      else
        match env.generateUndelegateMessages hc unbonding.unbondAmount.amount with
        | none => pure (failUnbonding epoch hc unbonding s)
        | some messages =>
          match s.generateAndExecuteICATx env hc.chainId hc.connectionId
              hc.delegationAccount.owner messages with
          | (none, s) => pure (failUnbonding epoch hc unbonding s)
          | (some sequenceId, s) => do
            let unbonding := { unbonding with
              ibcSequenceId := sequenceId, state := .unbondingInitiated }
            let s := s.setUnbonding unbonding
            let unbondAmount ← liftPanic (newCoin env.validDenom hc.hostDenom unbonding.unbondAmount.amount)
            let burnAmount ← liftPanic (newCoin env.validDenom hc.hostDenom unbonding.burnAmount.amount)
            pure (s.emit (.undelegationWorkflow hc.chainId epoch unbondAmount burnAmount messages
              sequenceId))

/-- A chain's undelegation pass does nothing, marks the bucket failed, or submits one
transaction and marks the bucket initiated or failed by its outcome. -/
theorem undelegationWorkflowChain_cases {epoch : Int} {s s' : State} {hc : HostChain}
    (h : undelegationWorkflowChain env epoch s hc = .ok s') :
    s' = s ∨ hc.active = true ∧ ∃ u, s.getUnbonding hc.chainId
        (env.currentUnbondingEpoch hc.unbondingFactor epoch) = some u ∧
      (s' = failUnbonding epoch hc u s ∨ ∃ msgs,
        env.generateUndelegateMessages hc u.unbondAmount.amount = some msgs ∧
        (s' = failUnbonding epoch hc u
          (s.recordCall hc.chainId none (.icaTx hc.connectionId hc.delegationAccount.owner msgs)) ∨
        ∃ sequenceId e, s' = ((s.recordCall hc.chainId none
          (.icaTx hc.connectionId hc.delegationAccount.owner msgs)).setUnbonding
            { u with ibcSequenceId := sequenceId, state := .unbondingInitiated }).emit e)) := by
  unfold undelegationWorkflowChain at h
  cases hact : hc.active
  · simp only [hact, Bool.not_false, if_true, pure_eq_ok] at h
    exact .inl h.symm
  simp only [hact, Bool.not_true] at h
  rw [if_neg (by decide)] at h
  split_ifs at h with hep
  · exact .inl (pure_eq_ok.mp h).symm
  split at h
  · exact .inl (pure_eq_ok.mp h).symm
  next u hu =>
  split_ifs at h with hamt
  · exact .inl (pure_eq_ok.mp h).symm
  refine .inr ⟨rfl, u, hu, ?_⟩
  split at h
  · exact .inl (pure_eq_ok.mp h).symm
  next msgs hmsgs =>
  refine .inr ⟨msgs, hmsgs, ?_⟩
  simp only [State.generateAndExecuteICATx] at h
  rcases hica : env.icaOutcome s.calls with _ | sequenceId <;> rw [hica] at h
  · exact .inl (pure_eq_ok.mp h).symm
  simp only [bind_eq_ok, liftPanic_eq_ok] at h
  obtain ⟨_, -, _, -, h⟩ := h
  exact .inr ⟨_, _, (pure_eq_ok.mp h).symm⟩

def undelegationWorkflow (epoch : Int) (s : State) : Except KeeperError State :=
  s.getAllHostChains.foldlM (undelegationWorkflowChain env epoch) s

/-! ## Validator undelegation workflow -/

/-- The validator has been unbonding for `UnbondingStateEpochLimit` epochs: its marker is set
and the `int64` sum `UnbondingEpoch + UnbondingStateEpochLimit` is not after `epoch`. -/
def forceUnbondDue (epoch : Int) (validator : Validator) : Bool :=
  validator.unbondingEpoch > 0 &&
    Int.bmod (validator.unbondingEpoch + env.unbondingStateEpochLimit) (2 ^ 64) ≤ epoch

/-- The validators of one chain. The flag is set when a submission failed and the workflow
`return`ed. -/
def validatorUndelegationLoop (epoch : Int) :
    List Validator → HostChain → State → Except KeeperError (Bool × State)
  | [], _, s => pure (false, s)
  | validator :: rest, hc, s =>
    if !forceUnbondDue env epoch validator then validatorUndelegationLoop epoch rest hc s
    else do
      let amount ← liftPanic (newCoin env.validDenom hc.hostDenom validator.delegatedAmount)
      match s.generateAndExecuteICATx env hc.chainId hc.connectionId hc.delegationAccount.owner
          [.msgUndelegate hc.delegationAccount.address validator.operatorAddress amount] with
      | (none, s) => pure (true, s)
      | (some sequenceId, s) => do
        let validatorUnbonding : ValidatorUnbonding :=
          { chainId := hc.chainId, epochNumber := epoch, matureTime := none,
            validatorAddress := validator.operatorAddress, amount := amount,
            ibcSequenceId := sequenceId }
        let s := s.setValidatorUnbonding validatorUnbonding
        let hc := { hc with validators := env.redistributeValidatorWeight hc.validators validator }
        let s := s.setHostChain hc
        let eventAmount ← liftPanic (newCoin env.validDenom hc.hostDenom amount.amount)
        let s := s.emit (.validatorUndelegationWorkflow hc.chainId epoch validator.operatorAddress
          eventAmount sequenceId)
        validatorUndelegationLoop epoch rest hc s

/-- The chains of `ValidatorUndelegationWorkflow`, until one of its submissions fails. -/
def validatorUndelegationChains (epoch : Int) : List HostChain → State → Except KeeperError State
  | [], s => pure s
  | hc :: rest, s =>
    if !hc.active then validatorUndelegationChains epoch rest s
    else if !env.isUnbondingEpoch hc.unbondingFactor epoch then
      validatorUndelegationChains epoch rest s
    else do
      let (returned, s) ← validatorUndelegationLoop env epoch hc.validators hc s
      if returned then pure s else validatorUndelegationChains epoch rest s

def validatorUndelegationWorkflow (epoch : Int) (s : State) : Except KeeperError State :=
  validatorUndelegationChains env epoch s.getAllHostChains s

/-! ## Rewards workflow -/

/-- The balance queries about a chain's rewards account, sent when its channel is open; a
failed query is only logged. -/
def rewardsAccountQueries (hc : HostChain) (s : State) : State :=
  match hc.rewardsAccount with
  | some account =>
    if account.channelState = ICAAccount.icaChannelCreated then
      let s := if hc.rewardParams.isSome then
        (s.submitQuery env hc.chainId .nonCompoundableRewardsBalanceQuery).2 else s
      (s.submitQuery env hc.chainId .rewardsBalanceQuery).2
    else s
  | none => s

/-- The reward withdrawals of one chain, one message per validator with a delegation. -/
def rewardsMessages (hc : HostChain) : List ICAMsg :=
  (hc.validators.filter (·.delegatedAmount > 0)).map fun v =>
    .msgWithdrawDelegatorReward hc.delegationAccount.address v.operatorAddress

/-- One chain of `RewardsWorkflow`; a failed withdrawal skips the chain's queries too. -/
def rewardsWorkflowChain (epoch : Int) (s : State) (hc : HostChain) : State :=
  if !hc.active then s
  else if rewardsMessages hc ≠ [] then
    match s.generateAndExecuteICATx env hc.chainId hc.connectionId hc.delegationAccount.owner
        (rewardsMessages hc) with
    | (none, s) => s
    | (some _, s) =>
      rewardsAccountQueries env hc (s.emit (.rewardsWorkflow hc.chainId epoch (rewardsMessages hc)))
  else rewardsAccountQueries env hc s

def rewardsWorkflow (epoch : Int) (s : State) : State :=
  s.getAllHostChains.foldl (rewardsWorkflowChain env epoch) s

/-! ## Rebalance workflow -/

/-- One redelegation message, submitted as its own transaction. -/
def rebalanceWorkflowStep (hc : HostChain) (s : State) (msg : ICAMsg) : State :=
  match s.generateAndExecuteICATx env hc.chainId hc.connectionId hc.delegationAccount.owner [msg] with
  | (none, s) => s
  | (some ibcSeq, s) => s.setRedelegationTx ⟨hc.chainId, ibcSeq, .redelegateSent⟩

/-- One chain of `RebalanceWorkflow`, skipped on the chain's unbonding epochs. -/
def rebalanceWorkflowChain (epoch : Int) (s : State) (hc : HostChain) : State :=
  if env.isUnbondingEpoch hc.unbondingFactor epoch then s
  else (env.generateRedelegateMsgs hc).foldl (rebalanceWorkflowStep env hc) s

def rebalanceWorkflow (epoch : Int) (s : State) : State :=
  s.getAllHostChains.foldl (rebalanceWorkflowChain env epoch) s

/-! ## Epoch hooks -/

def beforeEpochStart (epochIdentifier : String) (epochNumber : Int) (s : State) : State :=
  let s := if epochIdentifier = env.delegationEpoch then s.createDeposits env epochNumber else s
  if epochIdentifier = env.cValueEpoch then s.updateCValues else s

/-- A block of `AfterEpochEnd` that runs on one epoch identifier only. -/
def onEpoch (p : Prop) [Decidable p] (workflow : State → Except KeeperError State) (s : State) :
    Except KeeperError State :=
  if p then workflow s else pure s

theorem onEpoch_rel (R : State → State → Prop) (hrefl : ∀ s, R s s) {p : Prop} [Decidable p]
    {workflow : State → Except KeeperError State} {s s' : State}
    (hrun : p → ∀ {s s'}, workflow s = .ok s' → R s s') (h : onEpoch p workflow s = .ok s') :
    R s s' := by
  unfold onEpoch at h
  split_ifs at h with hp
  · exact hrun hp h
  · cases pure_eq_ok.mp h; exact hrefl s

def afterEpochEnd (epochIdentifier : String) (epochNumber : Int) (s : State) :
    Except KeeperError State :=
  onEpoch (epochIdentifier = env.delegationEpoch)
      (fun s => depositWorkflow env epochNumber s >>= lsmWorkflow env) s >>=
    onEpoch (epochIdentifier = env.undelegationEpoch)
      (fun s => validatorUndelegationWorkflow env epochNumber s >>=
        undelegationWorkflow env epochNumber) >>=
    onEpoch (epochIdentifier = env.rewardsEpochIdentifier)
      (fun s => pure (rewardsWorkflow env epochNumber s)) >>=
    onEpoch (epochIdentifier = env.redelegationEpochIdentifer)
      (fun s => pure (rebalanceWorkflow env epochNumber s))

/-- A relation that composes and that each workflow establishes holds between the start of
`AfterEpochEnd` and its result; a workflow's premise is needed only on the epochs that run it. -/
theorem afterEpochEnd_rel (R : State → State → Prop) (hrefl : ∀ s, R s s)
    (htrans : ∀ {s₁ s₂ s₃}, R s₁ s₂ → R s₂ s₃ → R s₁ s₃)
    {epochIdentifier : String} {epochNumber : Int} {s s' : State}
    (hdeposit : epochIdentifier = env.delegationEpoch →
      ∀ {s s'}, depositWorkflow env epochNumber s = .ok s' → R s s')
    (hlsm : epochIdentifier = env.delegationEpoch → ∀ {s s'}, lsmWorkflow env s = .ok s' → R s s')
    (hvalidator : epochIdentifier = env.undelegationEpoch →
      ∀ {s s'}, validatorUndelegationWorkflow env epochNumber s = .ok s' → R s s')
    (hundelegation : epochIdentifier = env.undelegationEpoch →
      ∀ {s s'}, undelegationWorkflow env epochNumber s = .ok s' → R s s')
    (hrewards : epochIdentifier = env.rewardsEpochIdentifier →
      ∀ s, R s (rewardsWorkflow env epochNumber s))
    (hrebalance : epochIdentifier = env.redelegationEpochIdentifer →
      ∀ s, R s (rebalanceWorkflow env epochNumber s))
    (h : afterEpochEnd env epochIdentifier epochNumber s = .ok s') : R s s' := by
  have hpair {w₁ w₂ : State → Except KeeperError State} (h₁ : ∀ {s s'}, w₁ s = .ok s' → R s s')
      (h₂ : ∀ {s s'}, w₂ s = .ok s' → R s s') {s s'} (h : (w₁ s >>= w₂) = .ok s') : R s s' :=
    let ⟨_, hs₁, hs'⟩ := bind_eq_ok.mp h; htrans (h₁ hs₁) (h₂ hs')
  have hpure {w : State → State} (hw : ∀ s, R s (w s)) {s s'} (h : (pure (w s) : Except KeeperError State) = .ok s') :
      R s s' := by
    cases pure_eq_ok.mp h; exact hw s
  obtain ⟨s₃, h₃, h⟩ := bind_eq_ok.mp h
  obtain ⟨s₂, h₂, h₃⟩ := bind_eq_ok.mp h₃
  obtain ⟨s₁, h₁, h₂⟩ := bind_eq_ok.mp h₂
  exact htrans (htrans (htrans
    (onEpoch_rel R hrefl (fun hid => hpair (hdeposit hid) (hlsm hid)) h₁)
    (onEpoch_rel R hrefl (fun hid => hpair (hvalidator hid) (hundelegation hid)) h₂))
    (onEpoch_rel R hrefl (fun hid => hpure (hrewards hid)) h₃))
    (onEpoch_rel R hrefl (fun hid => hpure (hrebalance hid)) h)

end PstakeNative.LiquidStakeIBC
