import PstakeNative.LiquidStakeIBC.Callbacks

/-! # The keeper as a state machine

Everything that happens to the keeper is an epoch hook or a transfer callback. Each runs as one
atomic step: an error returned by a callback fails its transaction, and a panic in an epoch
hook is caught by the epochs module, so either way the state is left as it was. The transport
forgets a packet once its acknowledgement or timeout has been handled.
-/

namespace PstakeNative.LiquidStakeIBC

/-- One thing that can happen to the keeper. `epochTick` is the epochs module ending epoch `n`
of an identifier: `AfterEpochEnd(n)`, the epoch number moves to `n + 1`, `BeforeEpochStart(n + 1)`. -/
inductive Action
  | beforeEpochStart (epochIdentifier : String) (epochNumber : Int)
  | afterEpochEnd (epochIdentifier : String) (epochNumber : Int)
  | epochTick (epochIdentifier : String) (epochNumber : Int)
  | recvPacket (packet : Packet) (transferAck : Acknowledgement)
  | acknowledgePacket (packet : Packet) (acknowledgement : Option Acknowledgement)
      (transferAckErr : Option String)
  | timeoutPacket (packet : Packet) (transferTimeoutErr : Option String)

/-- The writes of a hook persist only when it returns without error. -/
def commit (s : State) : Except KeeperError State → State
  | .ok s' => s'
  | .error _ => s

/-- The transport forgets a packet once its acknowledgement or timeout has been handled. -/
@[simps]
def State.clearCommitment (s : State) (packet : Packet) : State :=
  { s with commitments := s.commitments.erase packet }

variable (env : Env)

def epochTick (epochIdentifier : String) (epochNumber : Int) (s : State) : State :=
  let s := commit s (afterEpochEnd env epochIdentifier epochNumber s)
  let s := if epochIdentifier = env.delegationEpoch then
      { s with delegationEpochNumber := epochNumber + 1 } else s
  beforeEpochStart env epochIdentifier (epochNumber + 1) s

def step (s : State) : Action → State
  | .beforeEpochStart epochIdentifier n => beforeEpochStart env epochIdentifier n s
  | .afterEpochEnd epochIdentifier n => commit s (afterEpochEnd env epochIdentifier n s)
  | .epochTick epochIdentifier n => epochTick env epochIdentifier n s
  | .recvPacket packet ack => commit s (onRecvIBCTransferPacket env packet ack s)
  | .acknowledgePacket packet ack err =>
    commit s ((onAcknowledgementIBCTransferPacket env packet ack err s).map (·.clearCommitment packet))
  | .timeoutPacket packet err =>
    commit s ((onTimeoutIBCTransferPacket env packet err s).map (·.clearCommitment packet))

/-- The actions the reconciliation engine consists of: the `AfterEpochEnd` workflows and the
three transfer callbacks. -/
def Action.IsReconciliation : Action → Prop
  | .afterEpochEnd .. | .recvPacket .. | .acknowledgePacket .. | .timeoutPacket .. => True
  | .beforeEpochStart .. | .epochTick .. => False

/-- What the epochs module and the transport allow in a state: the delegation epoch ends at its
current number, and only packets in flight are acknowledged or time out. -/
def Action.Allowed (s : State) : Action → Prop
  | .epochTick epochIdentifier n => epochIdentifier = env.delegationEpoch → n = s.delegationEpochNumber
  | .recvPacket .. => True
  | .acknowledgePacket packet .. | .timeoutPacket packet .. => packet ∈ s.commitments
  | .beforeEpochStart .. | .afterEpochEnd .. => False

/-- Any action at all. -/
def SystemStep (s s' : State) : Prop := ∃ a, s' = step env s a

/-- A reconciliation action. -/
def ReconcileStep (s s' : State) : Prop := ∃ a, a.IsReconciliation ∧ s' = step env s a

/-- An action the epochs module and the transport allow. -/
def EpochStep (s s' : State) : Prop := ∃ a, a.Allowed env s ∧ s' = step env s a

/-! ## A keeper with one host chain

The spec's scenarios: one active chain `C` on `channel-0`, hosting `uatom`, with a 2% restake
fee, and collaborators that always succeed. -/

/-- A keeper that has registered its host chains and holds no record yet. -/
def State.genesis (hostChains : Table HostChain.chainId) (epoch : Int) : State where
  hostChains := hostChains
  deposits := Table.empty
  lsmDeposits := Table.empty
  unbondings := Table.empty
  validatorUnbondings := Table.empty
  redelegationTxs := Table.empty
  delegationEpochNumber := epoch
  blockTime := 0
  nextSequenceSend := fun _ => 1
  commitments := []
  calls := 0
  remoteCalls := []
  protocolFees := []
  cValueUpdates := []
  events := []

def exampleEnv : Env where
  delegationEpoch := "day"
  undelegationEpoch := "day"
  rewardsEpochIdentifier := "day"
  redelegationEpochIdentifer := "day"
  cValueEpoch := "hour"
  unbondingStateEpochLimit := 4
  ibcTimeoutTimestamp := 1000
  depositModuleAddress := "deposit"
  undelegationModuleAddress := "undelegation"
  feeAddress := "fee"
  validDenom := fun _ => true
  intFromString := decimalIntFromString
  ibcDenom := fun _ => "ibc/ATOM"
  isUnbondingEpoch := fun _ _ => false
  currentUnbondingEpoch := fun _ e => e
  generateUndelegateMessages := fun _ _ => some []
  generateRedelegateMsgs := fun _ => []
  redistributeValidatorWeight := fun vs _ => vs
  transferOutcome := fun _ => .sent
  icaOutcome := fun _ => some "ica-1"
  queryOutcome := fun _ => true
  sendProtocolFeeOutcome := fun _ => true

def chainC : HostChain where
  chainId := "C"
  connectionId := "connection-0"
  channelId := "channel-0"
  hostDenom := "uatom"
  active := true
  unbondingFactor := 4
  flags := ⟨false⟩
  params := ⟨⟨20000000000000000⟩⟩
  delegationAccount := ⟨"cosmos1del", ⟨"ibc/ATOM", 0⟩, "owner", ICAAccount.icaChannelCreated⟩
  rewardsAccount := some ⟨"cosmos1rew", ⟨"uatom", 0⟩, "owner-r", ICAAccount.icaChannelCreated⟩
  rewardParams := none
  validators := []

/-- Chain `C` registered at delegation epoch 5, with its epoch-5 deposit of `amount`. -/
def exampleState (amount : Int) : State :=
  (State.genesis (Table.empty.set chainC) 5).setDeposit
    ⟨"C", ⟨"ibc/ATOM", amount⟩, 5, .depositPending, ""⟩

end PstakeNative.LiquidStakeIBC
