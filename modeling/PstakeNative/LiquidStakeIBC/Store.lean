import PstakeNative.LiquidStakeIBC.Types

/-! # Store accessors and collaborators

The keeper's getters and setters over its tables, the sequence identifier that joins a pending
record to its packet, and the calls into the transfer handler, the interchain-account
controller, the query module and the bank. The store helpers the workflows and callbacks call
are not in the sources; each is modelled from what the spec says it does.
-/

namespace PstakeNative.LiquidStakeIBC

/-- Modelled from the spec: `GetTransactionSequenceID` is absent; the spec composes the
identifier from the outbound channel id and the numeric packet sequence. -/
def getTransactionSequenceID (channelId : String) (sequence : Nat) : String :=
  channelId ++ "-sequence-" ++ toString sequence

theorem getTransactionSequenceID_ne_empty (channelId : String) (sequence : Nat) :
    getTransactionSequenceID channelId sequence ≠ "" := by
  intro h
  have := congrArg String.length h
  simp only [getTransactionSequenceID, String.length_append] at this
  have : "-sequence-".length = 10 := by decide
  have : "".length = 0 := rfl
  omega

/-- Distinct (channel, sequence) pairs give distinct identifiers: the sequence is the run of
digits after the last non-digit. -/
theorem getTransactionSequenceID_injective {c c' : String} {n n' : Nat}
    (h : getTransactionSequenceID c n = getTransactionSequenceID c' n') : c = c' ∧ n = n' := by
  have hdata := congrArg (fun s => s.data.reverse) h
  simp only [getTransactionSequenceID, String.data_append, List.reverse_append] at hdata
  change (Nat.toDigits 10 n).reverse ++ '-' :: _ = (Nat.toDigits 10 n').reverse ++ '-' :: _
    at hdata
  obtain ⟨hn, hc⟩ := digitRun_unique
    (fun x hx => (toDigits_spec n).2.1 x (List.mem_reverse.mp hx))
    (fun x hx => (toDigits_spec n').2.1 x (List.mem_reverse.mp hx)) (by decide) (by decide) hdata
  exact ⟨String.ext (List.reverse_injective (List.append_cancel_left hc)),
    toDigits_injective (List.reverse_injective hn)⟩

namespace State

variable (s : State)

/-! ## Host chains -/

def getHostChain (chainId : String) : Option HostChain := s.hostChains.get? chainId

@[simps]
def setHostChain (hc : HostChain) : State := { s with hostChains := s.hostChains.set hc }

def getAllHostChains : List HostChain := s.hostChains.rows

/-- Modelled from the spec: `GetHostChainFromHostDenom` is absent; it finds the registered
chain whose host denomination an inbound transfer carries. -/
def getHostChainFromHostDenom (denom : String) : Option HostChain :=
  s.hostChains.rows.find? (·.hostDenom = denom)

/-! ## Deposits -/

def getDepositForChainAndEpoch (chainId : String) (epoch : Int) : Option Deposit :=
  s.deposits.get? (chainId, epoch)

@[simps]
def setDeposit (d : Deposit) : State := { s with deposits := s.deposits.set d }

@[simps]
def deleteDeposit (d : Deposit) : State := { s with deposits := s.deposits.erase d.key }

/-- Modelled from the spec: `GetPendingDepositsBeforeEpoch` is absent; it returns the pending
deposits whose epoch is not after `epoch`. -/
def getPendingDepositsBeforeEpoch (epoch : Int) : List Deposit :=
  s.deposits.rows.filter fun d => d.epoch ≤ epoch ∧ d.state = .depositPending

/-- Modelled from the spec: `GetDepositsWithSequenceID` is absent; it returns the deposits
carrying the sequence id. -/
def getDepositsWithSequenceID (sequenceId : String) : List Deposit :=
  s.deposits.rows.filter (·.ibcSequenceId = sequenceId)

/-- Modelled from the spec: `RevertDepositsState` is absent; it puts each deposit back to
pending with its sequence id cleared. -/
def revertDepositsState (deposits : List Deposit) : State :=
  deposits.foldl (fun s d => s.setDeposit { d with state := .depositPending, ibcSequenceId := "" }) s

/-- Reverting writes the deposits table only. -/
theorem revertDepositsState_deposits_only (deposits : List Deposit) :
    ∃ t, s.revertDepositsState deposits = { s with deposits := t } :=
  foldl_rel (fun a a' : State => ∃ t, a' = { a with deposits := t }) (fun a => ⟨a.deposits, rfl⟩)
    (fun _ _ _ ⟨t, h₁⟩ ⟨t', h₂⟩ => ⟨t', by rw [h₂, h₁]⟩) (fun a d _ => ⟨_, rfl⟩) s

section

variable (deposits : List Deposit)

@[simp] theorem revertDepositsState_lsmDeposits :
    (s.revertDepositsState deposits).lsmDeposits = s.lsmDeposits := by
  obtain ⟨t, h⟩ := s.revertDepositsState_deposits_only deposits; rw [h]

@[simp] theorem revertDepositsState_hostChains :
    (s.revertDepositsState deposits).hostChains = s.hostChains := by
  obtain ⟨t, h⟩ := s.revertDepositsState_deposits_only deposits; rw [h]

@[simp] theorem revertDepositsState_nextSequenceSend :
    (s.revertDepositsState deposits).nextSequenceSend = s.nextSequenceSend := by
  obtain ⟨t, h⟩ := s.revertDepositsState_deposits_only deposits; rw [h]

@[simp] theorem revertDepositsState_commitments :
    (s.revertDepositsState deposits).commitments = s.commitments := by
  obtain ⟨t, h⟩ := s.revertDepositsState_deposits_only deposits; rw [h]

@[simp] theorem revertDepositsState_delegationEpochNumber :
    (s.revertDepositsState deposits).delegationEpochNumber = s.delegationEpochNumber := by
  obtain ⟨t, h⟩ := s.revertDepositsState_deposits_only deposits; rw [h]

@[simp] theorem revertDepositsState_remoteCalls :
    (s.revertDepositsState deposits).remoteCalls = s.remoteCalls := by
  obtain ⟨t, h⟩ := s.revertDepositsState_deposits_only deposits; rw [h]

end

/-! ## LSM deposits -/

@[simps]
def setLSMDeposit (d : LSMDeposit) : State := { s with lsmDeposits := s.lsmDeposits.set d }

/-- Modelled from the spec: `GetTransferableLSMDeposits` is absent; it returns the chain's
pending LSM deposits. -/
def getTransferableLSMDeposits (chainId : String) : List LSMDeposit :=
  s.lsmDeposits.rows.filter fun d => d.chainId = chainId ∧ d.state = .depositPending

/-- Modelled from the spec: `GetLSMDepositsFromIbcSequenceID` is absent; it returns the LSM
deposits carrying the sequence id. -/
def getLSMDepositsFromIbcSequenceID (sequenceId : String) : List LSMDeposit :=
  s.lsmDeposits.rows.filter (·.ibcSequenceId = sequenceId)

/-- Modelled from the spec: `UpdateLSMDepositsStateAndSequence` is absent; it writes the state
and the sequence id into every deposit given. -/
def updateLSMDepositsStateAndSequence (deposits : List LSMDeposit) (state : DepositState)
    (sequenceId : String) : State :=
  deposits.foldl (fun s d => s.setLSMDeposit { d with state, ibcSequenceId := sequenceId }) s

/-- Updating writes the LSM deposits table only. -/
theorem updateLSMDepositsStateAndSequence_lsmDeposits_only (deposits : List LSMDeposit)
    (state : DepositState) (sequenceId : String) :
    ∃ t, s.updateLSMDepositsStateAndSequence deposits state sequenceId = { s with lsmDeposits := t } :=
  foldl_rel (fun a a' : State => ∃ t, a' = { a with lsmDeposits := t }) (fun a => ⟨a.lsmDeposits, rfl⟩)
    (fun _ _ _ ⟨t, h₁⟩ ⟨t', h₂⟩ => ⟨t', by rw [h₂, h₁]⟩) (fun a d _ => ⟨_, rfl⟩) s

section

variable (deposits : List LSMDeposit) (state : DepositState) (sequenceId : String)

@[simp] theorem updateLSMDepositsStateAndSequence_deposits :
    (s.updateLSMDepositsStateAndSequence deposits state sequenceId).deposits = s.deposits := by
  obtain ⟨t, h⟩ := s.updateLSMDepositsStateAndSequence_lsmDeposits_only deposits state sequenceId
  rw [h]

@[simp] theorem updateLSMDepositsStateAndSequence_hostChains :
    (s.updateLSMDepositsStateAndSequence deposits state sequenceId).hostChains = s.hostChains := by
  obtain ⟨t, h⟩ := s.updateLSMDepositsStateAndSequence_lsmDeposits_only deposits state sequenceId
  rw [h]

@[simp] theorem updateLSMDepositsStateAndSequence_nextSequenceSend :
    (s.updateLSMDepositsStateAndSequence deposits state sequenceId).nextSequenceSend =
      s.nextSequenceSend := by
  obtain ⟨t, h⟩ := s.updateLSMDepositsStateAndSequence_lsmDeposits_only deposits state sequenceId
  rw [h]

@[simp] theorem updateLSMDepositsStateAndSequence_commitments :
    (s.updateLSMDepositsStateAndSequence deposits state sequenceId).commitments = s.commitments := by
  obtain ⟨t, h⟩ := s.updateLSMDepositsStateAndSequence_lsmDeposits_only deposits state sequenceId
  rw [h]

@[simp] theorem updateLSMDepositsStateAndSequence_delegationEpochNumber :
    (s.updateLSMDepositsStateAndSequence deposits state sequenceId).delegationEpochNumber =
      s.delegationEpochNumber := by
  obtain ⟨t, h⟩ := s.updateLSMDepositsStateAndSequence_lsmDeposits_only deposits state sequenceId
  rw [h]

@[simp] theorem updateLSMDepositsStateAndSequence_remoteCalls :
    (s.updateLSMDepositsStateAndSequence deposits state sequenceId).remoteCalls = s.remoteCalls := by
  obtain ⟨t, h⟩ := s.updateLSMDepositsStateAndSequence_lsmDeposits_only deposits state sequenceId
  rw [h]

end

/-- Modelled from the spec: `RevertLSMDepositsState` is absent; it puts each LSM deposit back to
pending with its sequence id cleared. -/
def revertLSMDepositsState (deposits : List LSMDeposit) : State :=
  deposits.foldl (fun s d => s.setLSMDeposit { d with state := .depositPending, ibcSequenceId := "" }) s

/-! ## Unbondings and redelegations -/

def filterUnbondings (p : Unbonding → Bool) : List Unbonding := s.unbondings.rows.filter p

def getUnbonding (chainId : String) (epoch : Int) : Option Unbonding :=
  s.unbondings.get? (chainId, epoch)

@[simps]
def setUnbonding (u : Unbonding) : State := { s with unbondings := s.unbondings.set u }

@[simps]
def setValidatorUnbonding (v : ValidatorUnbonding) : State :=
  { s with validatorUnbondings := s.validatorUnbondings.set v }

@[simps]
def setRedelegationTx (t : RedelegateTx) : State :=
  { s with redelegationTxs := s.redelegationTxs.set t }

/-! ## Epochs, c-values and events -/

/-- Modelled from the spec: `CreateDeposits` is absent; at the start of a delegation epoch it
creates an empty pending deposit for every registered chain. -/
def createDeposits (env : Env) (epoch : Int) : State :=
  s.getAllHostChains.foldl (fun s hc => s.setDeposit
    { chainId := hc.chainId, amount := ⟨env.ibcDenom hc, 0⟩, epoch,
      state := .depositPending, ibcSequenceId := "" }) s

/-- Creating deposits writes the deposits table only. -/
theorem createDeposits_deposits_only (env : Env) (epoch : Int) :
    ∃ t, s.createDeposits env epoch = { s with deposits := t } :=
  foldl_rel (fun a a' : State => ∃ t, a' = { a with deposits := t }) (fun a => ⟨a.deposits, rfl⟩)
    (fun _ _ _ ⟨t, h₁⟩ ⟨t', h₂⟩ => ⟨t', by rw [h₂, h₁]⟩) (fun a d _ => ⟨_, rfl⟩) s

section

variable (env : Env) (epoch : Int)

@[simp] theorem createDeposits_hostChains :
    (s.createDeposits env epoch).hostChains = s.hostChains := by
  obtain ⟨t, h⟩ := s.createDeposits_deposits_only env epoch; rw [h]

@[simp] theorem createDeposits_nextSequenceSend :
    (s.createDeposits env epoch).nextSequenceSend = s.nextSequenceSend := by
  obtain ⟨t, h⟩ := s.createDeposits_deposits_only env epoch; rw [h]

@[simp] theorem createDeposits_commitments :
    (s.createDeposits env epoch).commitments = s.commitments := by
  obtain ⟨t, h⟩ := s.createDeposits_deposits_only env epoch; rw [h]

@[simp] theorem createDeposits_delegationEpochNumber :
    (s.createDeposits env epoch).delegationEpochNumber = s.delegationEpochNumber := by
  obtain ⟨t, h⟩ := s.createDeposits_deposits_only env epoch; rw [h]

end

/-- `UpdateCValue` recomputes a chain's exchange value; the model records that it ran. -/
@[simps]
def updateCValue (hc : HostChain) : State :=
  { s with cValueUpdates := s.cValueUpdates ++ [hc.chainId] }

/-- Modelled from the spec: `UpdateCValues` is absent; it recomputes the exchange value of
every registered chain. -/
def updateCValues : State := s.getAllHostChains.foldl (fun s hc => s.updateCValue hc) s

/-- Updating the c-values writes their log only. -/
theorem updateCValues_cValueUpdates_only : ∃ l, s.updateCValues = { s with cValueUpdates := l } :=
  foldl_rel (fun a a' : State => ∃ l, a' = { a with cValueUpdates := l })
    (fun a => ⟨a.cValueUpdates, rfl⟩) (fun _ _ _ ⟨l, h₁⟩ ⟨l', h₂⟩ => ⟨l', by rw [h₂, h₁]⟩)
    (fun a hc _ => ⟨_, rfl⟩) s

@[simp] theorem updateCValues_deposits : s.updateCValues.deposits = s.deposits := by
  obtain ⟨l, h⟩ := s.updateCValues_cValueUpdates_only; rw [h]

@[simp] theorem updateCValues_hostChains : s.updateCValues.hostChains = s.hostChains := by
  obtain ⟨l, h⟩ := s.updateCValues_cValueUpdates_only; rw [h]

@[simp] theorem updateCValues_nextSequenceSend :
    s.updateCValues.nextSequenceSend = s.nextSequenceSend := by
  obtain ⟨l, h⟩ := s.updateCValues_cValueUpdates_only; rw [h]

@[simp] theorem updateCValues_commitments : s.updateCValues.commitments = s.commitments := by
  obtain ⟨l, h⟩ := s.updateCValues_cValueUpdates_only; rw [h]

@[simp] theorem updateCValues_delegationEpochNumber :
    s.updateCValues.delegationEpochNumber = s.delegationEpochNumber := by
  obtain ⟨l, h⟩ := s.updateCValues_cValueUpdates_only; rw [h]

@[simps]
def emit (e : Event) : State := { s with events := s.events ++ [e] }

/-! ## Collaborators

Each call takes the collaborators' answer to the `s.calls`-th call, so a run may meet any
pattern of successes and failures. -/

@[simps]
def recordCall (chainId : String) (record : Option RecordKey) (op : RemoteOp) : State :=
  { s with calls := s.calls + 1, remoteCalls := s.remoteCalls ++ [⟨chainId, record, op⟩] }

/-- The packet data the transfer application builds from a `MsgTransfer`. -/
def packetData (msg : MsgTransfer) : FungibleTokenPacketData :=
  ⟨msg.token.denom, toString msg.token.amount, msg.sender, msg.receiver, msg.memo⟩

/-- The transport sends `msg`'s packet under its channel's next sequence. -/
@[simps]
def sendPacket (msg : MsgTransfer) : State :=
  { s with
    nextSequenceSend := Function.update s.nextSequenceSend msg.sourceChannel
      (s.nextSequenceSend msg.sourceChannel + 1)
    commitments := s.commitments ++
      [⟨s.nextSequenceSend msg.sourceChannel, msg.sourceChannel, some (packetData msg)⟩] }

/-- `msgRouter.Handler(msg)` for a transfer of `record` made for `chainId`, followed by decoding
its `MsgTransferResponse`: the packet's sequence when both succeed. -/
def submitTransfer (env : Env) (chainId : String) (record : RecordKey) (msg : MsgTransfer) :
    Option Nat × State :=
  let s' := s.recordCall chainId (some record) (.transfer msg)
  match env.transferOutcome s.calls with
  | .handlerError => (none, s')
  | .undecodableResponse => (none, s'.sendPacket msg)
  | .sent => (some (s'.nextSequenceSend msg.sourceChannel), s'.sendPacket msg)

/-- `GenerateAndExecuteICATx` for a transaction made for `chainId`. -/
def generateAndExecuteICATx (env : Env) (chainId connectionId owner : String)
    (msgs : List ICAMsg) : Option String × State :=
  (env.icaOutcome s.calls, s.recordCall chainId none (.icaTx connectionId owner msgs))

/-- An interchain query about a chain's rewards account: whether it was sent. -/
def submitQuery (env : Env) (chainId : String) (op : RemoteOp) : Bool × State :=
  (env.queryOutcome s.calls, s.recordCall chainId none op)

/-- `SendProtocolFee` from the deposit module account to the fee address. -/
def sendProtocolFee (env : Env) (fee : List Coin) : Bool × State :=
  let s' := { s with calls := s.calls + 1 }
  if env.sendProtocolFeeOutcome s.calls then (true, { s' with protocolFees := s.protocolFees ++ [fee] })
  else (false, s')

/-- A fee that was sent is logged; nothing the store holds changes. -/
theorem sendProtocolFee_sent {env : Env} {fee : List Coin} {s' : State}
    (h : s.sendProtocolFee env fee = (true, s')) :
    s' = { s with calls := s.calls + 1, protocolFees := s.protocolFees ++ [fee] } := by
  unfold sendProtocolFee at h
  split at h <;> simp_all

end State

end PstakeNative.LiquidStakeIBC
