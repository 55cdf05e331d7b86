import PstakeNative.LiquidStakeIBC.Workflows

/-! # IBC transfer callbacks

The reconciler: the hooks the transfer application calls when a packet arrives from a host
chain, and when a packet the keeper sent is acknowledged or times out. A returned error makes
the transaction fail, so that none of the hook's writes persist.
-/

namespace PstakeNative.LiquidStakeIBC

/-- A value the callback cannot go on without, or the error it returns in its place. -/
def required {α : Type} (x : Option α) (e : KeeperError) : Except KeeperError α :=
  match x with
  | some a => pure a
  | none => .error e

@[simp]
theorem required_eq_ok {α : Type} {x : Option α} {e : KeeperError} {a : α} :
    required x e = .ok a ↔ x = some a := by
  cases x <;> simp [required, pure, Except.pure, eq_comm]

theorem required_some {α : Type} {a : α} {e : KeeperError} : required (some a) e = pure a := rfl

/-- Emit one event per record whose chain is registered, and fail on the first record whose
chain is not: the event loops that follow the settlement of deposits and LSM deposits. -/
def emitForChains (chainIds : List String) (event : String → Event) (s : State) :
    Except KeeperError State :=
  chainIds.foldlM (fun s chainId => do
    let hc ← required (s.getHostChain chainId) (.hostChainNotRegistered chainId)
    pure (s.emit (event hc.chainId))) s

/-- The event loops only emit events. -/
theorem emitForChains_eq_ok {chainIds : List String} {event : String → Event} {s s' : State}
    (h : emitForChains chainIds event s = .ok s') : ∃ es, s' = { s with events := s.events ++ es } := by
  refine foldlM_rel (fun a a' : State => ∃ es, a' = { a with events := a.events ++ es })
    (fun a => ⟨[], by simp⟩) (fun a b c ⟨es, hb⟩ ⟨es', hc⟩ => ⟨es ++ es', by simp [hc, hb]⟩)
    (fun a chainId a' _ h => ?_) h
  obtain ⟨hc, -, h⟩ := bind_eq_ok.mp h
  exact ⟨_, (pure_eq_ok.mp h).symm⟩

variable (env : Env)

/-! ## Inbound transfers -/

/-- The transfer closes an undelegation: every matured unbonding of the chain is claimable. -/
def recvUndelegationTransfer (hc : HostChain) (data : FungibleTokenPacketData) (s : State) :
    Except KeeperError State :=
  if data.sender = hc.delegationAccount.address ∧ data.receiver = env.undelegationModuleAddress ∧
      data.memo = "" then
    (s.filterUnbondings fun u => u.chainId = hc.chainId ∧ u.state = .unbondingMatured).foldlM
      (fun s unbonding => do
        let unbonding := { unbonding with ibcSequenceId := "", state := .unbondingClaimable }
        let s := s.setUnbonding unbonding
        let amount ← liftPanic (newCoin env.validDenom hc.hostDenom unbonding.unbondAmount.amount)
        pure (s.emit (.unbondingMaturedReceived hc.chainId unbonding.epochNumber amount))) s
  else pure s

/-- The transfer returns a whole validator's stake: it is added to the current deposit. -/
def recvValidatorUnbondingTransfer (hc : HostChain) (data : FungibleTokenPacketData)
    (s : State) : Except KeeperError State :=
  if data.sender = hc.delegationAccount.address ∧ data.receiver = env.depositModuleAddress ∧
      data.memo = "" then do
    let currentEpoch := s.delegationEpochNumber
    let deposit ← required (s.getDepositForChainAndEpoch hc.chainId currentEpoch)
      (.depositNotFound hc.chainId currentEpoch)
    let transferAmount ← required (env.intFromString.parse data.amount) (.parsingAmount data.amount)
    let total ← liftPanic (intAdd deposit.amount.amount transferAmount)
    let s := s.setDeposit { deposit with amount := { deposit.amount with amount := total } }
    let amount ← liftPanic (newCoin env.validDenom hc.hostDenom transferAmount)
    pure (s.emit (.validatorUnbondingMaturedReceived hc.chainId amount))
  else pure s

/-- A validator's returned stake is added to the current deposit, within the `math.Int` bound. -/
theorem recvValidatorUnbondingTransfer_eq_ok {hc : HostChain} {data : FungibleTokenPacketData}
    {s s' : State} (h : recvValidatorUnbondingTransfer env hc data s = .ok s') :
    s' = s ∨ ∃ d A e, s.getDepositForChainAndEpoch hc.chainId s.delegationEpochNumber = some d ∧
      env.intFromString.parse data.amount = some A ∧ IntFits (d.amount.amount + A) ∧
      s' = (s.setDeposit { d with amount := { d.amount with amount := d.amount.amount + A } }).emit e := by
  unfold recvValidatorUnbondingTransfer at h
  split_ifs at h
  · simp only [bind_eq_ok, required_eq_ok, liftPanic_eq_ok] at h
    obtain ⟨d, hd, A, hA, total, htotal, _, -, h⟩ := h
    obtain ⟨hfits, rfl⟩ := intAdd_eq_ok.mp htotal
    exact .inr ⟨d, A, _, hd, hA, hfits, (pure_eq_ok.mp h).symm⟩
  · exact .inl (pure_eq_ok.mp h).symm

/-- The transfer carries withdrawn rewards: the protocol fee goes to the fee address and the
rest is added to the current deposit. Reading the rewards account of a chain without one is a
nil-pointer panic. -/
def recvAutocompoundTransfer (hc : HostChain) (data : FungibleTokenPacketData) (s : State) :
    Except KeeperError State := do
  let rewardsAccount ← required hc.rewardsAccount (.panic .nilPointerDereference)
  if data.sender = rewardsAccount.address ∧ data.receiver = env.depositModuleAddress ∧
      data.memo = "" then do
    let transferAmount ← required (env.intFromString.parse data.amount) (.parsingAmount data.amount)
    let feeAmount ← liftPanic (hc.params.restakeFee.mulInt transferAmount)
    let decFee ← liftPanic (newDecCoinFromDec env.validDenom (env.ibcDenom hc) feeAmount)
    let (fee, _) ← liftPanic (decFee.truncateDecimal env.validDenom)
    let fees ← liftPanic (newCoins env.validDenom fee)
    let (sent, s) := s.sendProtocolFee env fees
    if !sent then .error (.failedDeposit env.feeAddress)
    else do
      let currentEpoch := s.delegationEpochNumber
      let deposit ← required (s.getDepositForChainAndEpoch hc.chainId currentEpoch)
        (.depositNotFound hc.chainId currentEpoch)
      let truncatedFee ← liftPanic feeAmount.truncateInt
      let credit ← liftPanic (intSub transferAmount truncatedFee)
      let total ← liftPanic (intAdd deposit.amount.amount credit)
      let s := s.setDeposit { deposit with amount := { deposit.amount with amount := total } }
      let s := s.updateCValue hc
      let transferCoin ← liftPanic (newCoin env.validDenom hc.hostDenom transferAmount)
      let feeCoin ← liftPanic (feeAmount.truncateInt >>= newCoin env.validDenom hc.hostDenom)
      pure (s.emit (.autocompoundRewardsReceived hc.chainId transferCoin feeCoin))
  else pure s

/-- A successful autocompounding branch did nothing, or it sent the truncated fee to the fee
address and added the rest of the transfer to the current deposit. -/
theorem recvAutocompoundTransfer_eq_ok {hc : HostChain} {data : FungibleTokenPacketData}
    {s s' : State} (h : recvAutocompoundTransfer env hc data s = .ok s') :
    ((∀ account, hc.rewardsAccount = some account → ¬ (data.sender = account.address ∧
      data.receiver = env.depositModuleAddress ∧ data.memo = "")) ∧ s' = s) ∨
    ∃ account A t d e,
      hc.rewardsAccount = some account ∧
      (data.sender = account.address ∧ data.receiver = env.depositModuleAddress ∧ data.memo = "") ∧
      env.intFromString.parse data.amount = some A ∧
      t = (hc.params.restakeFee.i * A).tdiv precisionMultiplier ∧
      s.getDepositForChainAndEpoch hc.chainId s.delegationEpochNumber = some d ∧
      s' = ((({ s with calls := s.calls + 1, protocolFees := s.protocolFees ++
          [if t = 0 then [] else [Coin.mk (env.ibcDenom hc) t]] }).setDeposit
          { d with amount := { d.amount with amount := d.amount.amount + (A - t) } }).updateCValue
          hc).emit e := by
  rcases hacc : hc.rewardsAccount with _ | account
  · simp only [recvAutocompoundTransfer, hacc, required, bind, Except.bind] at h
    cases h
  by_cases hcond : data.sender = account.address ∧ data.receiver = env.depositModuleAddress ∧
    data.memo = ""
  swap
  · simp only [recvAutocompoundTransfer, hacc, required_some, pure_bind, if_neg hcond] at h
    refine .inl ⟨fun a ha => ?_, (pure_eq_ok.mp h).symm⟩
    obtain rfl := Option.some.inj ha
    exact hcond
  right
  simp only [recvAutocompoundTransfer, hacc, required_some, pure_bind, if_pos hcond,
    required_eq_ok, bind_eq_ok, liftPanic_eq_ok] at h
  obtain ⟨A, hA, feeAmount, hfee, decFee, hdec, ⟨fee, change⟩, htrunc, fees, hfees, h⟩ := h
  rcases hsend : s.sendProtocolFee env fees with ⟨sent, s₁⟩
  cases sent
  · simp [hsend] at h
  simp only [hsend] at h
  rw [if_neg (by decide)] at h
  simp only [bind_eq_ok, required_eq_ok, liftPanic_eq_ok] at h
  obtain ⟨d, hd, t, ht, credit, hcredit, total, htotal, tc, -, fc, -, h⟩ := h
  obtain ⟨-, rfl⟩ := LegacyDec.mulInt_eq_ok.mp hfee
  cases newDecCoinFromDec_eq_ok hdec
  obtain ⟨hft, hfd⟩ := DecCoin.truncateDecimal_coin htrunc
  obtain ⟨-, rfl⟩ := LegacyDec.truncateInt_eq_ok.mp ht
  obtain ⟨-, hfa⟩ := LegacyDec.truncateInt_eq_ok.mp hft
  obtain ⟨-, rfl⟩ := intSub_eq_ok.mp hcredit
  obtain ⟨-, rfl⟩ := intAdd_eq_ok.mp htotal
  cases s.sendProtocolFee_sent hsend
  obtain ⟨fd, fa⟩ := fee
  simp only at hfd hfa
  subst hfd hfa
  refine ⟨account, A, _, d, .autocompoundRewardsReceived hc.chainId tc fc, rfl, hcond, hA, rfl, hd,
    ?_⟩
  rw [← pure_eq_ok.mp h, newCoins_eq_ok hfees]

/-- `OnRecvIBCTransferPacket`: a transfer from a registered host chain is sorted by its sender,
receiver and memo alone; the three cases are tested one after another. -/
def onRecvIBCTransferPacket (packet : Packet) (transferAck : Acknowledgement) (s : State) :
    Except KeeperError State :=
  if !transferAck.success then pure s
  else do
    let data ← required packet.data .unmarshal
    match s.getHostChainFromHostDenom data.denom with
    | none => pure s
    | some hc =>
      recvUndelegationTransfer env hc data s >>= recvValidatorUnbondingTransfer env hc data >>=
        recvAutocompoundTransfer env hc data

/-- A transfer that is not dropped goes through the three branches in turn. -/
theorem onRecvIBCTransferPacket_eq_ok {packet : Packet} {transferAck : Acknowledgement}
    {s s' : State} (h : onRecvIBCTransferPacket env packet transferAck s = .ok s') :
    s' = s ∨ ∃ data hc s₁ s₂, packet.data = some data ∧
      s.getHostChainFromHostDenom data.denom = some hc ∧
      recvUndelegationTransfer env hc data s = .ok s₁ ∧
      recvValidatorUnbondingTransfer env hc data s₁ = .ok s₂ ∧
      recvAutocompoundTransfer env hc data s₂ = .ok s' := by
  unfold onRecvIBCTransferPacket at h
  split_ifs at h
  · exact .inl (pure_eq_ok.mp h).symm
  obtain ⟨data, hdata, h⟩ := bind_eq_ok.mp h
  split at h
  · exact .inl (pure_eq_ok.mp h).symm
  next hc hhc =>
  obtain ⟨s₂, h₂, h⟩ := bind_eq_ok.mp h
  obtain ⟨s₁, h₁, h₂⟩ := bind_eq_ok.mp h₂
  exact .inr ⟨data, hc, s₁, s₂, required_eq_ok.mp hdata, hhc, h₁, h₂, h⟩

/-! ## Acknowledgements and timeouts -/

/-- One deposit settled by a successful acknowledgement: it is received, its sequence id is
cleared, and its chain's delegation account is credited with the transferred amount. -/
def ackDeposit (sequenceId : String) (transferAmount : Int) (s : State) (deposit : Deposit) :
    Except KeeperError State := do
  let s := s.setDeposit { deposit with ibcSequenceId := "", state := .depositReceived }
  let hc ← required (s.getHostChain deposit.chainId) (.hostChainNotRegistered deposit.chainId)
  let balance ← liftPanic (hc.delegationAccount.balance.add
    ⟨hc.delegationAccount.balance.denom, transferAmount⟩)
  let hc := { hc with delegationAccount := { hc.delegationAccount with balance } }
  pure ((s.setHostChain hc).emit (.stakingDepositTransferReceived hc.chainId sequenceId))

/-- Settling one deposit credits its chain's delegation balance with the transferred amount. -/
theorem ackDeposit_eq_ok {sequenceId : String} {A : Int} {s s' : State} {d : Deposit}
    (h : ackDeposit sequenceId A s d = .ok s') :
    ∃ hc e, s.getHostChain d.chainId = some hc ∧
      IntFits (hc.delegationAccount.balance.amount + A) ∧
      s' = ((s.setDeposit { d with ibcSequenceId := "", state := .depositReceived }).setHostChain
        { hc with delegationAccount := { hc.delegationAccount with balance :=
          { hc.delegationAccount.balance with
            amount := hc.delegationAccount.balance.amount + A } } }).emit e := by
  simp only [ackDeposit, bind_eq_ok, required_eq_ok, liftPanic_eq_ok] at h
  obtain ⟨hc, hhc, balance, hbalance, h⟩ := h
  simp only [Coin.add, if_pos, map_eq_ok] at hbalance
  obtain ⟨total, htotal, rfl⟩ := hbalance
  obtain ⟨hfits, rfl⟩ := intAdd_eq_ok.mp htotal
  exact ⟨hc, _, hhc, hfits, (pure_eq_ok.mp h).symm⟩

/-- `OnAcknowledgementIBCTransferPacket`. -/
def onAcknowledgementIBCTransferPacket (packet : Packet) (acknowledgement : Option Acknowledgement)
    (transferAckErr : Option String) (s : State) : Except KeeperError State :=
  match transferAckErr with
  | some err => .error (.transferErr err)
  | none => do
    let ack ← required acknowledgement .unmarshal
    if !ack.success then .error .invalidAcknowledgement
    else do
      let data ← required packet.data .unmarshal
      let transferAmount ← required (env.intFromString.parse data.amount)
        (.parseIbcTransferAmount data.amount)
      if data.sender = env.depositModuleAddress then do
        let sequenceId := getTransactionSequenceID packet.sourceChannel packet.sequence
        let s ← (s.getDepositsWithSequenceID sequenceId).foldlM (ackDeposit sequenceId transferAmount) s
        let lsmDeposits := s.getLSMDepositsFromIbcSequenceID sequenceId
        let s := s.updateLSMDepositsStateAndSequence lsmDeposits .depositReceived ""
        emitForChains (lsmDeposits.map (·.chainId)) (.lsmDepositTransferReceived · sequenceId) s
      else pure s

/-- An error acknowledgement is refused before any record is read. -/
theorem onAcknowledgementIBCTransferPacket_errorAck (packet : Packet) (message : String)
    (s : State) :
    onAcknowledgementIBCTransferPacket env packet (some (.error message)) none s =
      .error .invalidAcknowledgement := rfl

/-- A successful acknowledgement of a deposit module transfer settles every deposit and then
every LSM deposit carrying the packet's sequence id. -/
theorem onAcknowledgementIBCTransferPacket_eq_ok {packet : Packet}
    {acknowledgement : Option Acknowledgement} {transferAckErr : Option String} {s s' : State}
    (h : onAcknowledgementIBCTransferPacket env packet acknowledgement transferAckErr s = .ok s') :
    transferAckErr = none ∧ ∃ ack data A, acknowledgement = some ack ∧ ack.success = true ∧
      packet.data = some data ∧ env.intFromString.parse data.amount = some A ∧
      (data.sender ≠ env.depositModuleAddress ∧ s' = s ∨
       data.sender = env.depositModuleAddress ∧ ∃ s₁,
        (s.getDepositsWithSequenceID (getTransactionSequenceID packet.sourceChannel
          packet.sequence)).foldlM (ackDeposit (getTransactionSequenceID packet.sourceChannel
            packet.sequence) A) s = .ok s₁ ∧
        emitForChains ((s₁.getLSMDepositsFromIbcSequenceID (getTransactionSequenceID
            packet.sourceChannel packet.sequence)).map (·.chainId))
          (.lsmDepositTransferReceived · (getTransactionSequenceID packet.sourceChannel
            packet.sequence))
          (s₁.updateLSMDepositsStateAndSequence (s₁.getLSMDepositsFromIbcSequenceID
            (getTransactionSequenceID packet.sourceChannel packet.sequence)) .depositReceived "") =
          .ok s') := by
  unfold onAcknowledgementIBCTransferPacket at h
  split at h
  · cases h
  refine ⟨rfl, ?_⟩
  obtain ⟨ack, hack, h⟩ := bind_eq_ok.mp h
  cases hsucc : ack.success
  · simp [hsucc] at h
  simp only [hsucc, Bool.not_true] at h
  rw [if_neg (by decide)] at h
  simp only [bind_eq_ok, required_eq_ok] at h
  obtain ⟨data, hdata, A, hA, h⟩ := h
  refine ⟨ack, data, A, required_eq_ok.mp hack, hsucc, hdata, hA, ?_⟩
  split_ifs at h with hsender
  · obtain ⟨s₁, h₁, h⟩ := bind_eq_ok.mp h
    exact .inr ⟨hsender, s₁, h₁, h⟩
  · exact .inl ⟨hsender, (pure_eq_ok.mp h).symm⟩

/-- `OnTimeoutIBCTransferPacket`: the deposits sent in the packet go back to pending, to be sent
again by the next workflow run. -/
def onTimeoutIBCTransferPacket (packet : Packet) (transferTimeoutErr : Option String) (s : State) :
    Except KeeperError State :=
  match transferTimeoutErr with
  | some err => .error (.transferErr err)
  | none => do
    let data ← required packet.data .unmarshal
    if data.sender = env.depositModuleAddress then do
      let sequenceId := getTransactionSequenceID packet.sourceChannel packet.sequence
      let deposits := s.getDepositsWithSequenceID sequenceId
      let s := s.revertDepositsState deposits
      let s ← emitForChains (deposits.map (·.chainId)) (.stakingDepositTransferTimeout · sequenceId) s
      let lsmDeposits := s.getLSMDepositsFromIbcSequenceID sequenceId
      let s := s.revertLSMDepositsState lsmDeposits
      emitForChains (lsmDeposits.map (·.chainId)) (.lsmDepositTransferTimeout · sequenceId) s
    else pure s

/-- A timeout of a deposit module transfer puts every deposit and then every LSM deposit carrying
the packet's sequence id back to pending. -/
theorem onTimeoutIBCTransferPacket_eq_ok {packet : Packet} {transferTimeoutErr : Option String}
    {s s' : State} (h : onTimeoutIBCTransferPacket env packet transferTimeoutErr s = .ok s') :
    transferTimeoutErr = none ∧ ∃ data, packet.data = some data ∧
      (data.sender ≠ env.depositModuleAddress ∧ s' = s ∨
       data.sender = env.depositModuleAddress ∧ ∃ s₁,
        emitForChains ((s.getDepositsWithSequenceID (getTransactionSequenceID packet.sourceChannel
            packet.sequence)).map (·.chainId))
          (.stakingDepositTransferTimeout · (getTransactionSequenceID packet.sourceChannel
            packet.sequence))
          (s.revertDepositsState (s.getDepositsWithSequenceID (getTransactionSequenceID
            packet.sourceChannel packet.sequence))) = .ok s₁ ∧
        emitForChains ((s₁.getLSMDepositsFromIbcSequenceID (getTransactionSequenceID
            packet.sourceChannel packet.sequence)).map (·.chainId))
          (.lsmDepositTransferTimeout · (getTransactionSequenceID packet.sourceChannel
            packet.sequence))
          (s₁.revertLSMDepositsState (s₁.getLSMDepositsFromIbcSequenceID
            (getTransactionSequenceID packet.sourceChannel packet.sequence))) = .ok s') := by
  unfold onTimeoutIBCTransferPacket at h
  split at h
  · cases h
  refine ⟨rfl, ?_⟩
  obtain ⟨data, hdata, h⟩ := bind_eq_ok.mp h
  refine ⟨data, required_eq_ok.mp hdata, ?_⟩
  split_ifs at h with hsender
  · obtain ⟨s₁, h₁, h⟩ := bind_eq_ok.mp h
    exact .inr ⟨hsender, s₁, h₁, h⟩
  · exact .inl ⟨hsender, (pure_eq_ok.mp h).symm⟩

end PstakeNative.LiquidStakeIBC
