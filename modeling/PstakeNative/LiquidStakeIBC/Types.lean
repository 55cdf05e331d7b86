import PstakeNative.Support.Table
import PstakeNative.Support.SdkMath

/-! # The liquid-staking keeper's records

The host-chain registry, the pending-record tables the reconciler drives, the messages and
packets it exchanges with host chains, and the keeper state around them. Names follow the
`x/liquidstakeibc` protobuf types; a record keeps the fields this part of the keeper reads or
writes.
-/

namespace PstakeNative.LiquidStakeIBC

/-- `Deposit_DepositState`, which `LSMDeposit_LSMDepositState` repeats member for member. -/
inductive DepositState
  | depositPending
  | depositSent
  | depositReceived
  deriving DecidableEq, Repr

/-- `Unbonding_UnbondingState`. -/
inductive UnbondingState
  | unbondingPending
  | unbondingInitiated
  | unbondingMaturing
  | unbondingMatured
  | unbondingClaimable
  | unbondingFailed
  deriving DecidableEq, Repr

/-- `RedelegateTx_RedelegateTxState`, of which the rebalance workflow writes one member. -/
inductive RedelegateTxState
  | redelegateSent
  deriving DecidableEq, Repr

structure ICAAccount where
  address : String
  balance : Coin
  owner : String
  /-- An `ICAAccount_ChannelState`: a protobuf enum, so any `int32`, named member or not. -/
  channelState : BitVec 32
  deriving DecidableEq, Repr

/-- `ICAAccount_ICA_CHANNEL_CREATING`. -/
def ICAAccount.icaChannelCreating : BitVec 32 := 0

/-- `ICAAccount_ICA_CHANNEL_CREATED`. -/
def ICAAccount.icaChannelCreated : BitVec 32 := 1

structure Validator where
  operatorAddress : String
  delegatedAmount : Int
  unbondingEpoch : Int
  deriving DecidableEq, Repr

structure HostChainFlags where
  lsm : Bool
  deriving DecidableEq, Repr

structure HostChainLSParams where
  restakeFee : LegacyDec
  deriving DecidableEq, Repr

structure RewardParams where
  denom : String
  destination : String
  deriving DecidableEq, Repr

structure HostChain where
  chainId : String
  connectionId : String
  channelId : String
  hostDenom : String
  active : Bool
  unbondingFactor : Int
  flags : HostChainFlags
  params : HostChainLSParams
  delegationAccount : ICAAccount
  rewardsAccount : Option ICAAccount
  rewardParams : Option RewardParams
  validators : List Validator
  deriving DecidableEq, Repr

/-- A batch of one epoch's user deposits for one chain, keyed by `(chain id, epoch)`. -/
structure Deposit where
  chainId : String
  amount : Coin
  epoch : Int
  state : DepositState
  ibcSequenceId : String
  deriving DecidableEq, Repr

def Deposit.key (d : Deposit) : String × Int := (d.chainId, d.epoch)

/-- A tokenized-share deposit, keyed by `(chain id, delegator, denom)`. -/
structure LSMDeposit where
  chainId : String
  delegatorAddress : String
  denom : String
  ibcDenom : String
  shares : LegacyDec
  state : DepositState
  ibcSequenceId : String
  deriving DecidableEq, Repr

def LSMDeposit.key (d : LSMDeposit) : String × String × String :=
  (d.chainId, d.delegatorAddress, d.denom)

/-- One epoch bucket's unbonding requests for one chain, keyed by `(chain id, epoch)`. -/
structure Unbonding where
  chainId : String
  epochNumber : Int
  burnAmount : Coin
  unbondAmount : Coin
  ibcSequenceId : String
  state : UnbondingState
  deriving DecidableEq, Repr

def Unbonding.key (u : Unbonding) : String × Int := (u.chainId, u.epochNumber)

/-- A forced undelegation of a whole validator, keyed by `(chain id, validator, epoch)`;
`matureTime = none` is Go's zero `time.Time{}`. -/
structure ValidatorUnbonding where
  chainId : String
  epochNumber : Int
  matureTime : Option Int
  validatorAddress : String
  amount : Coin
  ibcSequenceId : String
  deriving DecidableEq, Repr

def ValidatorUnbonding.key (v : ValidatorUnbonding) : String × String × Int :=
  (v.chainId, v.validatorAddress, v.epochNumber)

structure RedelegateTx where
  chainId : String
  ibcSequenceId : String
  state : RedelegateTxState
  deriving DecidableEq, Repr

def RedelegateTx.key (t : RedelegateTx) : String × String := (t.chainId, t.ibcSequenceId)

/-- The host-chain messages an interchain-account transaction carries. -/
inductive ICAMsg
  | msgUndelegate (delegatorAddress validatorAddress : String) (amount : Coin)
  | msgWithdrawDelegatorReward (delegatorAddress validatorAddress : String)
  | msgBeginRedelegate (delegatorAddress validatorSrcAddress validatorDstAddress : String)
      (amount : Coin)
  deriving DecidableEq, Repr

/-- `ibctransfertypes.MsgTransfer`, with its zero timeout height left out. -/
structure MsgTransfer where
  sourcePort : String
  sourceChannel : String
  token : Coin
  sender : String
  receiver : String
  timeoutTimestamp : Nat
  memo : String
  deriving DecidableEq, Repr

/-- `ibctransfertypes.FungibleTokenPacketData`. -/
structure FungibleTokenPacketData where
  denom : String
  amount : String
  sender : String
  receiver : String
  memo : String
  deriving DecidableEq, Repr

/-- A transfer packet; `data = none` when its payload is not valid packet JSON. -/
structure Packet where
  sequence : Nat
  sourceChannel : String
  data : Option FungibleTokenPacketData
  deriving DecidableEq, Repr

/-- `channeltypes.Acknowledgement`. -/
inductive Acknowledgement
  | result (bytes : List UInt8)
  | error (message : String)
  deriving DecidableEq, Repr

def Acknowledgement.success : Acknowledgement → Bool
  | .result _ => true
  | .error _ => false

/-- The events this part of the keeper emits, with the attributes it sets. -/
inductive Event
  | unbondingMaturedReceived (chainId : String) (epoch : Int) (amount : Coin)
  | validatorUnbondingMaturedReceived (chainId : String) (amount : Coin)
  | autocompoundRewardsReceived (chainId : String) (transfer fee : Coin)
  | stakingDepositTransferReceived (chainId sequenceId : String)
  | lsmDepositTransferReceived (chainId sequenceId : String)
  | stakingDepositTransferTimeout (chainId sequenceId : String)
  | lsmDepositTransferTimeout (chainId sequenceId : String)
  | delegationWorkflow (chainId : String) (epoch : Int) (totalAmount : Coin) (sequenceId : String)
  | unsuccessfulUndelegationInitiation (chainId : String) (epoch : Int)
  | undelegationWorkflow (chainId : String) (epoch : Int) (unbondAmount burnAmount : Coin)
      (messages : List ICAMsg) (sequenceId : String)
  | validatorUndelegationWorkflow (chainId : String) (epoch : Int) (validatorAddress : String)
      (amount : Coin) (sequenceId : String)
  | rewardsWorkflow (chainId : String) (epoch : Int) (messages : List ICAMsg)
  | lsmWorkflow (chainId : String) (sharesAmount : LegacyDec)
  deriving DecidableEq, Repr

/-- The errors the IBC callbacks return; `panic` stands for a panic the transaction recovers. -/
inductive KeeperError
  | transferErr (message : String)
  | unmarshal
  | invalidAcknowledgement
  | parseIbcTransferAmount (amount : String)
  | hostChainNotRegistered (chainId : String)
  | depositNotFound (chainId : String) (epoch : Int)
  | parsingAmount (amount : String)
  | failedDeposit (feeAddress : String)
  | panic (reason : Panic)
  deriving DecidableEq, Repr

/-- A remote operation submitted for a host chain. -/
inductive RemoteOp
  | transfer (msg : MsgTransfer)
  | icaTx (connectionId owner : String) (msgs : List ICAMsg)
  | rewardsBalanceQuery
  | nonCompoundableRewardsBalanceQuery
  deriving DecidableEq, Repr

/-- A deposit or an LSM deposit, by its store key. -/
inductive RecordKey
  | deposit (key : String × Int)
  | lsmDeposit (key : String × String × String)
  deriving DecidableEq, Repr

/-- One call of a remote-execution collaborator. `chainId` and `record` are ghost annotations:
the host chain the call is made for, and the deposit a transfer moves. -/
structure RemoteCall where
  chainId : String
  record : Option RecordKey
  op : RemoteOp
  deriving DecidableEq, Repr

/-- What the transfer handler behind `msgRouter.Handler(msg)` did with a `MsgTransfer`. -/
inductive TransferOutcome
  | handlerError
  | undecodableResponse
  | sent
  deriving DecidableEq, Repr

/-- The keeper's store, the IBC transport's send side, and what the keeper has emitted. -/
structure State where
  hostChains : Table HostChain.chainId
  deposits : Table Deposit.key
  lsmDeposits : Table LSMDeposit.key
  unbondings : Table Unbonding.key
  validatorUnbondings : Table ValidatorUnbonding.key
  redelegationTxs : Table RedelegateTx.key
  /-- The epochs keeper's current number of the delegation epoch. -/
  delegationEpochNumber : Int
  /-- `ctx.BlockTime().UnixNano()`. -/
  blockTime : Int
  /-- The transport's next send sequence of each channel. -/
  nextSequenceSend : String → Nat
  /-- Packets sent and neither acknowledged nor timed out. -/
  commitments : List Packet
  /-- Remote calls made so far; the collaborators answer the `n`-th call. -/
  calls : Nat
  remoteCalls : List RemoteCall
  protocolFees : List (List Coin)
  cValueUpdates : List String
  events : List Event

/-- The keeper's constants, and the collaborators outside this part of the keeper. -/
structure Env where
  delegationEpoch : String
  undelegationEpoch : String
  rewardsEpochIdentifier : String
  redelegationEpochIdentifer : String
  cValueEpoch : String
  unbondingStateEpochLimit : Int
  /-- `IBCTimeoutTimestamp.Nanoseconds()`. -/
  ibcTimeoutTimestamp : Int
  /-- `authtypes.NewModuleAddress(DepositModuleAccount).String()`. -/
  depositModuleAddress : String
  undelegationModuleAddress : String
  /-- `GetParams(ctx).FeeAddress`. -/
  feeAddress : String
  /-- `sdk.ValidateDenom`. -/
  validDenom : String → Bool
  intFromString : IntFromString
  /-- `HostChain.IBCDenom`. -/
  ibcDenom : HostChain → String
  isUnbondingEpoch : Int → Int → Bool
  currentUnbondingEpoch : Int → Int → Int
  generateUndelegateMessages : HostChain → Int → Option (List ICAMsg)
  generateRedelegateMsgs : HostChain → List ICAMsg
  /-- `RedistributeValidatorWeight` on the chain's validator list. -/
  redistributeValidatorWeight : List Validator → Validator → List Validator
  transferOutcome : Nat → TransferOutcome
  /-- `GenerateAndExecuteICATx`: the transaction's sequence id, or `none` when it fails. -/
  icaOutcome : Nat → Option String
  queryOutcome : Nat → Bool
  sendProtocolFeeOutcome : Nat → Bool

end PstakeNative.LiquidStakeIBC
