import PstakeNative.LiquidStakeIBC.System

/-! # What a step can do to the pending records

The reconciler's invariants read a few things of the keeper: the state and the sequence id of
each deposit and LSM deposit, the transport's next sequence per channel and its packets in
flight, the registered chains' delegation balances and the delegation epoch. This module names
those views, says what each store operation does to them, and names the two relations every
step is built from: `RecordFrame`, for what changes none of them, and the sequence invariant's
safe writes.
-/

namespace PstakeNative.LiquidStakeIBC

namespace State

variable (s : State)

/-- The state and the sequence id of the deposit or the LSM deposit under a key. -/
def tracked : RecordKey → Option (DepositState × String)
  | .deposit k => (s.deposits.get? k).map fun d => (d.state, d.ibcSequenceId)
  | .lsmDeposit k => (s.lsmDeposits.get? k).map fun d => (d.state, d.ibcSequenceId)

/-- A registered chain's record apart from its validator set, which the validator undelegation
workflow rewrites. -/
def registry (chainId : String) : Option HostChain :=
  (s.getHostChain chainId).map fun hc => { hc with validators := [] }

/-- The delegation balance of a registered chain. -/
def balance (chainId : String) : Option Coin :=
  (s.getHostChain chainId).map (·.delegationAccount.balance)

/-- A remote call made for a registered chain that is active. -/
def CallForActive (c : RemoteCall) : Prop :=
  ∃ hc, s.registry c.chainId = some hc ∧ hc.active = true

end State

/-! ## The tracked records under each store operation -/

section Tracked

variable (s : State)

theorem tracked_congr {s s' : State} (hd : s'.deposits = s.deposits)
    (hl : s'.lsmDeposits = s.lsmDeposits) : s'.tracked = s.tracked := by
  funext k
  cases k <;> simp [State.tracked, hd, hl]

@[simp]
theorem tracked_setDeposit (d : Deposit) :
    (s.setDeposit d).tracked =
      Function.update s.tracked (.deposit d.key) (some (d.state, d.ibcSequenceId)) := by
  funext k
  cases k with
  | deposit k =>
    rcases eq_or_ne d.key k with rfl | h
    · simp [State.tracked]
    · simp [State.tracked, Function.update, h, Ne.symm h]
  | lsmDeposit k => simp [State.tracked, Function.update]

@[simp]
theorem tracked_deleteDeposit (d : Deposit) :
    (s.deleteDeposit d).tracked = Function.update s.tracked (.deposit d.key) none := by
  funext k
  cases k with
  | deposit k =>
    rcases eq_or_ne d.key k with rfl | h
    · simp [State.tracked]
    · simp [State.tracked, Function.update, h, Ne.symm h]
  | lsmDeposit k => simp [State.tracked, Function.update]

@[simp]
theorem tracked_setLSMDeposit (d : LSMDeposit) :
    (s.setLSMDeposit d).tracked =
      Function.update s.tracked (.lsmDeposit d.key) (some (d.state, d.ibcSequenceId)) := by
  funext k
  cases k with
  | deposit k => simp [State.tracked, Function.update]
  | lsmDeposit k =>
    rcases eq_or_ne d.key k with rfl | h
    · simp [State.tracked]
    · simp [State.tracked, Function.update, h, Ne.symm h]

@[simp] theorem tracked_setHostChain (hc : HostChain) : (s.setHostChain hc).tracked = s.tracked :=
  tracked_congr rfl rfl
@[simp] theorem tracked_setUnbonding (u : Unbonding) : (s.setUnbonding u).tracked = s.tracked :=
  tracked_congr rfl rfl
@[simp] theorem tracked_setValidatorUnbonding (v : ValidatorUnbonding) :
    (s.setValidatorUnbonding v).tracked = s.tracked := tracked_congr rfl rfl
@[simp] theorem tracked_setRedelegationTx (t : RedelegateTx) :
    (s.setRedelegationTx t).tracked = s.tracked := tracked_congr rfl rfl
@[simp] theorem tracked_updateCValue (hc : HostChain) : (s.updateCValue hc).tracked = s.tracked :=
  tracked_congr rfl rfl
@[simp] theorem tracked_emit (e : Event) : (s.emit e).tracked = s.tracked := tracked_congr rfl rfl
@[simp] theorem tracked_recordCall (c : String) (r : Option RecordKey) (op : RemoteOp) :
    (s.recordCall c r op).tracked = s.tracked := tracked_congr rfl rfl
@[simp] theorem tracked_sendPacket (msg : MsgTransfer) : (s.sendPacket msg).tracked = s.tracked :=
  tracked_congr rfl rfl
@[simp] theorem tracked_clearCommitment (p : Packet) : (s.clearCommitment p).tracked = s.tracked :=
  tracked_congr rfl rfl

/-- Changing a stored deposit's amount leaves the tracked records as they were. -/
theorem tracked_setDeposit_amount {d : Deposit} (h : s.deposits.get? d.key = some d) (a : Coin) :
    (s.setDeposit { d with amount := a }).tracked = s.tracked := by
  funext k
  rw [tracked_setDeposit]
  by_cases hk : k = .deposit d.key
  · subst hk
    show Function.update s.tracked (.deposit d.key) _ (.deposit d.key) = _
    simp [State.tracked, h]
  · exact Function.update_noteq hk _ _

/-- The record under a key of a table row is the row. -/
theorem tracked_of_mem_deposits {d : Deposit} (h : d ∈ s.deposits.rows) :
    s.tracked (.deposit d.key) = some (d.state, d.ibcSequenceId) := by
  simp [State.tracked, Table.get?_key_of_mem h]

theorem tracked_of_mem_lsmDeposits {d : LSMDeposit} (h : d ∈ s.lsmDeposits.rows) :
    s.tracked (.lsmDeposit d.key) = some (d.state, d.ibcSequenceId) := by
  simp [State.tracked, Table.get?_key_of_mem h]

end Tracked

/-! ## Collaborators -/

section Collaborators

variable (s : State) (env : Env)

/-- A transfer is recorded, and its packet sent unless the handler failed; the keeper learns the
packet's sequence only when the response decodes. -/
theorem submitTransfer_cases {c : String} {k : RecordKey} {msg : MsgTransfer} {r : Option Nat}
    {s' : State} (h : s.submitTransfer env c k msg = (r, s')) :
    (r = none ∧ (s' = s.recordCall c (some k) (.transfer msg) ∨
      s' = (s.recordCall c (some k) (.transfer msg)).sendPacket msg)) ∨
    (r = some (s.nextSequenceSend msg.sourceChannel) ∧
      s' = (s.recordCall c (some k) (.transfer msg)).sendPacket msg) := by
  unfold State.submitTransfer at h
  split at h <;> cases h <;> simp

@[simp]
theorem generateAndExecuteICATx_snd (c conn owner : String) (msgs : List ICAMsg) :
    (s.generateAndExecuteICATx env c conn owner msgs).2 =
      s.recordCall c none (.icaTx conn owner msgs) := rfl

@[simp]
theorem submitQuery_snd (c : String) (op : RemoteOp) :
    (s.submitQuery env c op).2 = s.recordCall c none op := rfl

end Collaborators

/-- The balance is part of the registry view. -/
theorem balance_eq_registry (s : State) (c : String) :
    s.balance c = (s.registry c).map (·.delegationAccount.balance) := by
  simp [State.balance, State.registry, Option.map_map, Function.comp_def]

/-- Rewriting a chain's validator set leaves the registry view as it was. -/
theorem registry_setHostChain_validators {s : State} {hc : HostChain}
    (hreg : s.registry hc.chainId = some { hc with validators := [] }) (vs : List Validator) :
    (s.setHostChain { hc with validators := vs }).registry = s.registry := by
  funext c
  by_cases hcid : hc.chainId = c
  · subst hcid
    simpa [State.registry, State.getHostChain] using hreg.symm
  · simp [State.registry, State.getHostChain, hcid]

/-- A chain of the registry is registered under its id. -/
theorem registry_of_mem {s : State} {hc : HostChain} (h : hc ∈ s.getAllHostChains) :
    s.registry hc.chainId = some { hc with validators := [] } := by
  simp [State.registry, State.getHostChain, Table.get?_key_of_mem h]

/-! ## Remote calls -/

/-- The remote calls made from `s` to `s'`, each satisfying `p`. -/
def CallsFrom (p : RemoteCall → Prop) (s s' : State) : Prop :=
  ∃ calls, s'.remoteCalls = s.remoteCalls ++ calls ∧ ∀ c ∈ calls, p c

namespace CallsFrom

variable {p q : RemoteCall → Prop} {s₁ s₂ s₃ : State}

theorem refl (s : State) : CallsFrom p s s := ⟨[], by simp, by simp⟩

theorem trans (h₁ : CallsFrom p s₁ s₂) (h₂ : CallsFrom p s₂ s₃) : CallsFrom p s₁ s₃ :=
  let ⟨c₁, e₁, h₁⟩ := h₁
  let ⟨c₂, e₂, h₂⟩ := h₂
  ⟨c₁ ++ c₂, by rw [e₂, e₁, List.append_assoc],
    fun c hc => (List.mem_append.mp hc).elim (h₁ c) (h₂ c)⟩

theorem mono (hpq : ∀ c, p c → q c) (h : CallsFrom p s₁ s₂) : CallsFrom q s₁ s₂ :=
  let ⟨calls, e, h⟩ := h
  ⟨calls, e, fun c hc => hpq c (h c hc)⟩

theorem of_eq (h : s₂.remoteCalls = s₁.remoteCalls) : CallsFrom p s₁ s₂ :=
  ⟨[], by simp [h], by simp⟩

theorem isPrefix (h : CallsFrom p s₁ s₂) : s₁.remoteCalls <+: s₂.remoteCalls :=
  let ⟨calls, e, _⟩ := h
  ⟨calls, e.symm⟩

theorem recordCall (s : State) (c : String) (r : Option RecordKey) (op : RemoteOp)
    (h : p ⟨c, r, op⟩) : CallsFrom p s (s.recordCall c r op) :=
  ⟨[⟨c, r, op⟩], rfl, by simpa using h⟩

end CallsFrom

/-! ## Steps that leave the records alone -/

/-- `s'` differs from `s` in nothing the reconciler's invariants read, and every remote call
made in between moves no record. -/
structure RecordFrame (s s' : State) : Prop where
  deposits : s'.deposits = s.deposits
  lsmDeposits : s'.lsmDeposits = s.lsmDeposits
  registry : s'.registry = s.registry
  nextSequenceSend : s'.nextSequenceSend = s.nextSequenceSend
  commitments : s'.commitments = s.commitments
  delegationEpochNumber : s'.delegationEpochNumber = s.delegationEpochNumber
  remoteCalls : CallsFrom (·.record = none) s s'

namespace RecordFrame

theorem refl (s : State) : RecordFrame s s := ⟨rfl, rfl, rfl, rfl, rfl, rfl, .refl s⟩

theorem trans {s₁ s₂ s₃ : State} (h₁ : RecordFrame s₁ s₂) (h₂ : RecordFrame s₂ s₃) :
    RecordFrame s₁ s₃ where
  deposits := h₂.deposits.trans h₁.deposits
  lsmDeposits := h₂.lsmDeposits.trans h₁.lsmDeposits
  registry := h₂.registry.trans h₁.registry
  nextSequenceSend := h₂.nextSequenceSend.trans h₁.nextSequenceSend
  commitments := h₂.commitments.trans h₁.commitments
  delegationEpochNumber := h₂.delegationEpochNumber.trans h₁.delegationEpochNumber
  remoteCalls := h₁.remoteCalls.trans h₂.remoteCalls

theorem tracked {s s' : State} (h : RecordFrame s s') : s'.tracked = s.tracked :=
  tracked_congr h.deposits h.lsmDeposits

theorem balance {s s' : State} (h : RecordFrame s s') : s'.balance = s.balance := by
  funext c
  rw [balance_eq_registry, balance_eq_registry, h.registry]

/-- A frame step is one whose views are those of its start; the views of a state built from
store operations are computed by `simp`. -/
theorem of_views {s s' : State} (hd : s'.deposits = s.deposits)
    (hl : s'.lsmDeposits = s.lsmDeposits) (hh : s'.hostChains = s.hostChains)
    (hn : s'.nextSequenceSend = s.nextSequenceSend) (hc : s'.commitments = s.commitments)
    (he : s'.delegationEpochNumber = s.delegationEpochNumber)
    (hr : CallsFrom (·.record = none) s s') : RecordFrame s s' :=
  ⟨hd, hl, by funext c; simp [State.registry, State.getHostChain, hh], hn, hc, he, hr⟩

end RecordFrame

/-! ## Steps that leave the transport alone -/

/-- `s'` has the transport, the remote calls and the epoch number of `s`: the transfer callbacks
change none of them. -/
structure CallbackFrame (s s' : State) : Prop where
  nextSequenceSend : s'.nextSequenceSend = s.nextSequenceSend
  commitments : s'.commitments = s.commitments
  remoteCalls : s'.remoteCalls = s.remoteCalls
  delegationEpochNumber : s'.delegationEpochNumber = s.delegationEpochNumber

namespace CallbackFrame

theorem refl (s : State) : CallbackFrame s s := ⟨rfl, rfl, rfl, rfl⟩

theorem trans {s₁ s₂ s₃ : State} (h₁ : CallbackFrame s₁ s₂) (h₂ : CallbackFrame s₂ s₃) :
    CallbackFrame s₁ s₃ :=
  ⟨h₂.nextSequenceSend.trans h₁.nextSequenceSend, h₂.commitments.trans h₁.commitments,
    h₂.remoteCalls.trans h₁.remoteCalls, h₂.delegationEpochNumber.trans h₁.delegationEpochNumber⟩

theorem of_recordFrame {s s' : State} (h : RecordFrame s s') (hc : s'.remoteCalls = s.remoteCalls) :
    CallbackFrame s s' :=
  ⟨h.nextSequenceSend, h.commitments, hc, h.delegationEpochNumber⟩

end CallbackFrame

end PstakeNative.LiquidStakeIBC
