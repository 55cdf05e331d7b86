import PstakeNative.LiquidStakeIBC.Ledger

/-! # Runs in the epochs module's order

The epochs module ends the delegation epoch at its current number and starts the next one at
once: `AfterEpochEnd(n)`, the epoch number moves to `n + 1`, `BeforeEpochStart(n + 1)`, which
creates the new epoch's deposits. In between, the transport delivers inbound transfers,
acknowledgements and timeouts of packets in flight. Along such runs the deposit of the current
delegation epoch, to which inbound transfers are credited, stays pending, since `DepositWorkflow`
only sends deposits of epochs that have ended; and every chain's ledger stays what it was, an
acknowledgement crediting a chain with exactly the amount of the deposit it receives.
-/

namespace PstakeNative.LiquidStakeIBC

/-- The invariant of the runs the epochs module and the transport allow. -/
structure EpochInvariant (s : State) : Prop where
  sequence : SequenceInvariant s
  transfer : TransferInvariant s
  epoch_le : ∀ k d, s.deposits.get? k = some d → d.epoch ≤ s.delegationEpochNumber
  current_pending : ∀ k d, s.deposits.get? k = some d → d.epoch = s.delegationEpochNumber →
    d.state = .depositPending

/-- What a step must do to the deposit under a key, from a state in delegation epoch `e`: keep
the deposit of epoch `e`, and change the amount only of a pending deposit of epoch `e`, which
stays pending. -/
structure DepositKept (e : Int) (a b : Option Deposit) : Prop where
  kept : ∀ d, a = some d → d.epoch = e → ∃ d', b = some d'
  amount : ∀ d d', a = some d → b = some d' → d'.amount ≠ d.amount →
    d.state = .depositPending ∧ d'.state = .depositPending ∧ d.epoch = e

theorem DepositKept.refl (e : Int) (a : Option Deposit) : DepositKept e a a :=
  ⟨fun d h _ => ⟨d, h⟩, fun d d' h h' hne => absurd (by rw [h] at h'; cases h'; rfl) hne⟩

/-- What one allowed step does, as the runs read it. -/
structure LedgerStep (s s' : State) : Prop where
  invariant : EpochInvariant s'
  ledger : s'.ledger = s.ledger
  kept : ∀ k, DepositKept s.delegationEpochNumber (s.deposits.get? k) (s'.deposits.get? k)

theorem LedgerStep.refl {s : State} (hs : EpochInvariant s) : LedgerStep s s :=
  ⟨hs, rfl, fun _ => .refl _ _⟩

/-- The ledger reads the deposits and the registry only. -/
theorem ledger_congr {s s' : State} (hd : s'.deposits = s.deposits)
    (hr : s'.registry = s.registry) : s'.ledger = s.ledger :=
  ledger_eq (balance_congr hr) fun k d _ => by rw [hd]

/-- A step that changes none of the deposits, the registry, the epoch number and the transport. -/
theorem LedgerStep.of_eq {s s' : State} (hs : EpochInvariant s) (hseq : SequenceInvariant s')
    (hd : s'.deposits = s.deposits) (hr : s'.registry = s.registry)
    (he : s'.delegationEpochNumber = s.delegationEpochNumber)
    (hn : s'.nextSequenceSend = s.nextSequenceSend) (hc : s'.commitments = s.commitments) :
    LedgerStep s s' where
  invariant :=
    ⟨hseq, hs.transfer.of_eq hn hc hd, fun k d h => he ▸ hs.epoch_le k d (hd ▸ h),
      fun k d h hep => hs.current_pending k d (hd ▸ h) (he ▸ hep)⟩
  ledger := ledger_congr hd hr
  kept _ := hd ▸ .refl _ _

/-! ## Transfer callbacks -/

/-- What a transfer callback may do to the deposit under a key, from a state in delegation epoch
`e`: leave it, change the amount of a pending deposit of epoch `e` without a sequence id, or
settle a sent deposit to `st`, clearing its sequence id. -/
def CallbackChange (e : Int) (st : DepositState) (a b : Option Deposit) : Prop :=
  b = a ∨
  (∃ d x, a = some d ∧ d.epoch = e ∧ d.state = .depositPending ∧ d.ibcSequenceId = "" ∧
    b = some { d with amount := x }) ∨
  ∃ d, a = some d ∧ d.state = .depositSent ∧ b = some { d with state := st, ibcSequenceId := "" }

namespace CallbackChange

variable {e : Int} {st : DepositState} {a b : Option Deposit}

theorem some_left {d : Deposit} (h : CallbackChange e st (some d) b) : ∃ d', b = some d' := by
  rcases h with rfl | ⟨_, _, -, -, -, -, rfl⟩ | ⟨_, -, -, rfl⟩ <;> exact ⟨_, rfl⟩

/-- A deposit after a callback was there before, with its epoch: it is the same, or a pending
deposit of epoch `e` with another amount, or a sent one settled to `st` with its amount. -/
theorem some_right {d' : Deposit} (h : CallbackChange e st a (some d')) :
    ∃ d, a = some d ∧ d'.epoch = d.epoch ∧ (d' = d ∨
      d.epoch = e ∧ d.state = .depositPending ∧ d'.state = .depositPending ∧ d'.ibcSequenceId = "" ∨
      d.state = .depositSent ∧ d'.state = st ∧ d'.ibcSequenceId = "" ∧ d'.amount = d.amount) := by
  rcases h with rfl | ⟨d, x, rfl, he, hp, hid, hb⟩ | ⟨d, rfl, hsent, hb⟩
  · exact ⟨d', rfl, rfl, .inl rfl⟩
  all_goals obtain rfl := Option.some.inj hb
  · exact ⟨d, rfl, rfl, .inr (.inl ⟨he, hp, hp, hid⟩)⟩
  · exact ⟨d, rfl, rfl, .inr (.inr ⟨hsent, rfl, rfl, rfl⟩)⟩

theorem depositKept (h : CallbackChange e st a b) : DepositKept e a b where
  kept d hd _ := some_left (hd ▸ h)
  amount d d' hd hd' hne := by
    subst hd hd'
    obtain ⟨d₀, h₀, -, rfl | ⟨he, hp, hp', -⟩ | ⟨-, -, -, ha⟩⟩ := some_right h <;>
      obtain rfl := Option.some.inj h₀
    · exact absurd rfl hne
    · exact ⟨hp, hp', he⟩
    · exact absurd ha hne

/-- A callback that settles deposits to a state other than received keeps the received ones. -/
theorem sameReceived {s s' : State} (hst : st ≠ .depositReceived)
    (h : ∀ k, CallbackChange e st (s.deposits.get? k) (s'.deposits.get? k)) :
    SameReceived s s' := by
  intro k d hr
  constructor
  · intro hd
    obtain ⟨d₀, h₀, -, rfl | ⟨-, -, hp, -⟩ | ⟨-, hst', -⟩⟩ := some_right (hd ▸ h k)
    · exact h₀
    · exact absurd (hr.symm.trans hp) (by decide)
    · exact absurd (hr.symm.trans hst') (Ne.symm hst)
  · intro hd
    obtain ⟨d', hd'⟩ := some_left (hd ▸ h k)
    obtain ⟨d₀, h₀, -, rfl | ⟨-, hp, -⟩ | ⟨hsent, -⟩⟩ := some_right (hd' ▸ h k) <;>
      obtain rfl := Option.some.inj (h₀.symm.trans hd)
    · exact hd'
    · exact absurd (hr.symm.trans hp) (by decide)
    · exact absurd (hr.symm.trans hsent) (by decide)

end CallbackChange

/-- A callback that changes the deposits as `CallbackChange` allows, keeps the epoch number, lets
the transport's sequences only grow and forgets packets only, keeps the invariant. -/
theorem LedgerStep.of_callback {s s' : State} {st : DepositState} (hs : EpochInvariant s)
    (hseq : SequenceInvariant s') (hledger : s'.ledger = s.ledger)
    (he : s'.delegationEpochNumber = s.delegationEpochNumber)
    (hn : s'.nextSequenceSend = s.nextSequenceSend) (hc : ∀ p ∈ s'.commitments, p ∈ s.commitments)
    (hrows : ∀ k, CallbackChange s.delegationEpochNumber st (s.deposits.get? k)
      (s'.deposits.get? k)) : LedgerStep s s' where
  invariant := by
    refine ⟨hseq, hs.transfer.of_ids (fun c => (congrFun hn c).ge) hc fun k d' h hid => ?_,
      fun k d' h => ?_, fun k d' h hep => ?_⟩ <;>
      obtain ⟨d, hd, hde, hcase⟩ := CallbackChange.some_right (h ▸ hrows k)
    -- a deposit that carries a sequence id after the callback is unchanged
    · rcases hcase with rfl | ⟨-, -, -, hid'⟩ | ⟨-, -, hid', -⟩
      · exact ⟨d', hd, rfl, rfl⟩
      all_goals exact absurd hid' hid
    -- every deposit keeps its epoch
    · rw [hde, he]
      exact hs.epoch_le k _ hd
    -- a deposit of the current epoch was pending, and stays pending
    · rcases hcase with rfl | ⟨-, -, hp', -⟩ | ⟨hsent, -⟩
      · exact hs.current_pending k _ hd (he ▸ hep)
      · exact hp'
      · exact absurd (hs.current_pending k _ hd (by rw [← hde, hep, he])) (by rw [hsent]; decide)
  ledger := hledger
  kept k := (hrows k).depositKept

/-! ### Inbound transfers -/

/-- What an inbound transfer may do to the deposit under a key: leave it, or change the amount
of the deposit of epoch `e`. -/
def Credit (e : Int) (a b : Option Deposit) : Prop :=
  b = a ∨ ∃ d x, a = some d ∧ d.epoch = e ∧ b = some { d with amount := x }

theorem Credit.trans {e : Int} {a b c : Option Deposit} (h₁ : Credit e a b) (h₂ : Credit e b c) :
    Credit e a c := by
  rcases h₁ with rfl | ⟨d, x, rfl, he, rfl⟩
  · exact h₂
  rcases h₂ with rfl | ⟨d', y, hd', -, rfl⟩
  · exact .inr ⟨d, x, rfl, he, rfl⟩
  · cases hd'
    exact .inr ⟨d, y, rfl, he, rfl⟩

theorem credit_setDeposit {s : State} {c : String} {e : Int} {d : Deposit}
    (hd : s.deposits.get? (c, e) = some d) (x : Coin) (k : String × Int) :
    Credit e (s.deposits.get? k) ((s.setDeposit { d with amount := x }).deposits.get? k) := by
  have hkey := ((s.deposits.get?_eq_some_iff).mp hd).2
  simp only [State.setDeposit_deposits, Table.get?_set]
  split_ifs with hk
  · refine .inr ⟨d, x, ?_, (Prod.mk.inj hkey).2, rfl⟩
    rw [← hk]; exact hkey ▸ hd
  · exact .inl rfl

variable (env : Env)

/-- An inbound transfer changes at most the amount of the current epoch's deposit of its chain. -/
theorem onRecvIBCTransferPacket_credit {packet : Packet} {transferAck : Acknowledgement}
    {s s' : State} (h : onRecvIBCTransferPacket env packet transferAck s = .ok s') (k : String × Int) :
    Credit s.delegationEpochNumber (s.deposits.get? k) (s'.deposits.get? k) := by
  rcases onRecvIBCTransferPacket_eq_ok env h with rfl | ⟨data, hc, s₁, s₂, -, -, h₁, h₂, h₃⟩
  · exact .inl rfl
  obtain ⟨hframe, -⟩ := recvUndelegationTransfer_frame env h₁
  have h₁₂ : Credit s.delegationEpochNumber (s₁.deposits.get? k) (s₂.deposits.get? k) ∧
      s₂.delegationEpochNumber = s.delegationEpochNumber := by
    rcases recvValidatorUnbondingTransfer_eq_ok env h₂ with rfl | ⟨d, A, e, hd, -, -, rfl⟩
    · exact ⟨.inl rfl, hframe.delegationEpochNumber⟩
    · exact ⟨hframe.delegationEpochNumber ▸ credit_setDeposit hd _ k, hframe.delegationEpochNumber⟩
  have h₂₃ : Credit s.delegationEpochNumber (s₂.deposits.get? k) (s'.deposits.get? k) := by
    rcases recvAutocompoundTransfer_eq_ok env h₃ with ⟨-, rfl⟩ | ⟨_, _, _, d, e, -, -, -, -, hd, rfl⟩
    · exact .inl rfl
    · exact h₁₂.2 ▸ credit_setDeposit (s := { s₂ with calls := _, protocolFees := _ }) hd _ k
  rw [hframe.deposits] at h₁₂
  exact h₁₂.1.trans h₂₃

theorem recvPacket_ledgerStep {s : State} (hs : EpochInvariant s) (packet : Packet)
    (transferAck : Acknowledgement) :
    LedgerStep s (step env s (.recvPacket packet transferAck)) ∧
      (step env s (.recvPacket packet transferAck)).balance = s.balance := by
  have hseq := step_invariant env hs.sequence (.recvPacket packet transferAck)
  simp only [step] at hseq ⊢
  rcases h : onRecvIBCTransferPacket env packet transferAck s with _ | s'
  · exact ⟨.refl hs, rfl⟩
  rw [h] at hseq
  obtain ⟨-, hreg, hframe⟩ := onRecvIBCTransferPacket_effect env h
  have hcredit := onRecvIBCTransferPacket_credit env h
  -- a credited deposit is the current epoch's, so it is pending and carries no sequence id
  have hrows : ∀ k, CallbackChange s.delegationEpochNumber .depositPending (s.deposits.get? k)
      (s'.deposits.get? k) := fun k => by
    rcases hcredit k with he | ⟨d, x, hd, hde, he⟩
    · exact .inl he
    have hp := hs.current_pending k d hd hde
    have htr : s.tracked (.deposit k) = some (.depositPending, d.ibcSequenceId) := by
      simp [State.tracked, hd, hp]
    exact .inr (.inl ⟨d, x, hd, hde, hp, hs.sequence.pending_id htr, he⟩)
  have hsame := CallbackChange.sameReceived (by decide) hrows
  exact ⟨.of_callback hs hseq (ledger_eq (balance_congr hreg) hsame) hframe.delegationEpochNumber
    hframe.nextSequenceSend (fun p hp => hframe.commitments ▸ hp) hrows, balance_congr hreg⟩

/-! ### Settling a packet -/

/-- Settling the deposits that carry a packet's sequence id, which are sent, is a callback's
change of each of them. -/
theorem callbackChange_of_settled {s s' : State} {sequenceId : String} {st : DepositState}
    (hs : SequenceInvariant s) (hid : sequenceId ≠ "")
    (hd : ∀ k, s'.deposits.get? k = (s.deposits.get? k).map fun d =>
      if d.ibcSequenceId = sequenceId then { d with state := st, ibcSequenceId := "" } else d)
    (e : Int) (k : String × Int) : CallbackChange e st (s.deposits.get? k) (s'.deposits.get? k) := by
  rw [hd]
  rcases h : s.deposits.get? k with _ | d
  · exact .inl rfl
  by_cases hs' : d.ibcSequenceId = sequenceId
  · have hsent := (hs.sent_iff (.deposit k) d.state d.ibcSequenceId
      (by simp [State.tracked, h])).mp (hs' ▸ hid)
    exact .inr (.inr ⟨d, rfl, hsent, by simp [hs']⟩)
  · exact .inl (by simp [hs'])

/-- The amount an acknowledgement reads from a packet in flight is the amount of each deposit sent
in it. -/
theorem ackAmount_eq {s : State} (hs : TransferInvariant s) {packet : Packet}
    (hp : packet ∈ s.commitments) {data : FungibleTokenPacketData} {A : Int}
    (hdata : packet.data = some data) (hA : env.intFromString.parse data.amount = some A)
    {d : Deposit}
    (hd : d ∈ s.getDepositsWithSequenceID
      (getTransactionSequenceID packet.sourceChannel packet.sequence)) : A = d.amount.amount := by
  obtain ⟨hmem, hid⟩ : d ∈ s.deposits.rows ∧ d.ibcSequenceId = getTransactionSequenceID
      packet.sourceChannel packet.sequence := by
    simpa [State.getDepositsWithSequenceID] using hd
  have hsent := hs.sent_amount packet hp d.key d (Table.get?_key_of_mem hmem) hid
  rw [hdata, Option.map_some', Option.some.injEq] at hsent
  rw [hsent, env.intFromString.parse_toString] at hA
  split_ifs at hA
  exact (Option.some.inj hA).symm

/-- A successful acknowledgement of a packet in flight credits each deposit it settles with the
packet's amount, which is the amount the deposit was sent with. -/
theorem acknowledgePacket_ledgerStep {s : State} (hs : EpochInvariant s) {packet : Packet}
    (hp : packet ∈ s.commitments) (acknowledgement : Option Acknowledgement)
    (transferAckErr : Option String) :
    LedgerStep s (step env s (.acknowledgePacket packet acknowledgement transferAckErr)) := by
  have hseq := step_invariant env hs.sequence (.acknowledgePacket packet acknowledgement transferAckErr)
  simp only [step] at hseq ⊢
  rcases h : onAcknowledgementIBCTransferPacket env packet acknowledgement transferAckErr s with
    _ | s'
  · exact .refl hs
  replace hseq : SequenceInvariant (s'.clearCommitment packet) := by rwa [h] at hseq
  show LedgerStep s (s'.clearCommitment packet)
  have hframe := onAcknowledgementIBCTransferPacket_frame env h
  have hcomm : ∀ p ∈ (s'.clearCommitment packet).commitments, p ∈ s.commitments := fun p hp' =>
    hframe.commitments ▸ (List.erase_subset _ _) hp'
  obtain ⟨-, ack, data, A, -, -, hdata, hA, (⟨-, rfl⟩ | ⟨-, s₁, h₁, h'⟩)⟩ :=
    onAcknowledgementIBCTransferPacket_eq_ok env h
  · exact .of_callback hs hseq rfl rfl rfl hcomm fun _ =>
      (Or.inl rfl : CallbackChange _ .depositReceived _ _)
  obtain ⟨es, rfl⟩ := emitForChains_eq_ok h'
  have hledger := ackDeposits_ledger hs.sequence (getTransactionSequenceID_ne_empty _ _)
    (fun d hd => ackAmount_eq env hs.transfer hp hdata hA hd) h₁
  obtain ⟨hd, -⟩ := ackDeposits_settled h₁
  exact .of_callback hs hseq (by rw [← hledger]; exact ledger_congr (by simp) (registry_congr (by simp)))
    hframe.delegationEpochNumber hframe.nextSequenceSend hcomm
    (callbackChange_of_settled hs.sequence (getTransactionSequenceID_ne_empty _ _)
      (fun k => by simpa using hd k) _)

/-- A timeout of a packet in flight puts the deposits sent in it back to pending. -/
theorem timeoutPacket_ledgerStep {s : State} (hs : EpochInvariant s) {packet : Packet}
    (hp : packet ∈ s.commitments) (transferTimeoutErr : Option String) :
    LedgerStep s (step env s (.timeoutPacket packet transferTimeoutErr)) ∧
      (step env s (.timeoutPacket packet transferTimeoutErr)).balance = s.balance := by
  have hseq := step_invariant env hs.sequence (.timeoutPacket packet transferTimeoutErr)
  simp only [step] at hseq ⊢
  rcases h : onTimeoutIBCTransferPacket env packet transferTimeoutErr s with _ | s'
  · exact ⟨.refl hs, rfl⟩
  replace hseq : SequenceInvariant (s'.clearCommitment packet) := by rwa [h] at hseq
  show LedgerStep s (s'.clearCommitment packet) ∧ (s'.clearCommitment packet).balance = s.balance
  have hframe := onTimeoutIBCTransferPacket_frame env h
  have hcomm : ∀ p ∈ (s'.clearCommitment packet).commitments, p ∈ s.commitments := fun p hp' =>
    hframe.commitments ▸ (List.erase_subset _ _) hp'
  obtain ⟨-, data, -, (⟨-, rfl⟩ | ⟨-, s₁, h₁, h'⟩)⟩ := onTimeoutIBCTransferPacket_eq_ok env h
  · exact ⟨.of_callback hs hseq rfl rfl rfl hcomm fun _ =>
      (Or.inl rfl : CallbackChange _ .depositPending _ _), rfl⟩
  obtain ⟨es, hs'⟩ := emitForChains_eq_ok h'
  obtain ⟨es₁, rfl⟩ := emitForChains_eq_ok h₁
  have hreg : (s'.clearCommitment packet).registry = s.registry :=
    registry_congr (by rw [show (s'.clearCommitment packet).hostChains = s'.hostChains from rfl, hs']; simp [revertLSMDepositsState_eq])
  have hrows : ∀ k, CallbackChange s.delegationEpochNumber .depositPending (s.deposits.get? k)
      ((s'.clearCommitment packet).deposits.get? k) :=
    callbackChange_of_settled hs.sequence (getTransactionSequenceID_ne_empty _ _) (fun k => by
      rw [show (s'.clearCommitment packet).deposits = s'.deposits from rfl, hs']
      simpa [revertLSMDepositsState_eq] using revertDepositsState_get? s _ k) _
  exact ⟨.of_callback hs hseq (ledger_eq (balance_congr hreg) (CallbackChange.sameReceived
    (by decide) hrows)) hframe.delegationEpochNumber hframe.nextSequenceSend hcomm hrows,
    balance_congr hreg⟩

/-! ## Epoch ticks -/

theorem DepositKept.of_none (e : Int) (b : Option Deposit) : DepositKept e none b :=
  ⟨fun _ h => Option.noConfusion h, fun _ _ h => Option.noConfusion h⟩

/-- The workflows at the end of the current delegation epoch `n` keep its deposits and change
no amount. -/
theorem RowChange.depositKept {n : Int} {a b : Option Deposit} (h : RowChange n a b) :
    DepositKept n a b where
  kept d hd he := (hd ▸ h).some_left he.ge
  amount d d' hd hd' hne := by
    obtain ⟨d₀, h₀, -, ha⟩ := RowChange.some_right (hd' ▸ h)
    obtain rfl := Option.some.inj (h₀.symm.trans hd)
    exact absurd ha hne

/-- `BeforeEpochStart` creates the deposits when the delegation epoch starts; otherwise it only
records c-value updates. -/
theorem beforeEpochStart_eq (epochIdentifier : String) (e : Int) (s : State) :
    ∃ l, beforeEpochStart env epochIdentifier e s = { (if epochIdentifier = env.delegationEpoch
      then s.createDeposits env e else s) with cValueUpdates := l } := by
  simp only [beforeEpochStart]
  split_ifs
  all_goals first
    | exact State.updateCValues_cValueUpdates_only _
    | exact ⟨_, rfl⟩

/-- An epoch of another identifier than the delegation epoch's ends and starts without touching
the deposits, the registry or the transport. -/
theorem epochTick_ledgerStep {s : State} (hs : EpochInvariant s) {epochIdentifier : String}
    (hid : epochIdentifier ≠ env.delegationEpoch) (n : Int) :
    LedgerStep s (step env s (.epochTick epochIdentifier n)) ∧
      (step env s (.epochTick epochIdentifier n)).balance = s.balance := by
  have hseq := step_invariant env hs.sequence (.epochTick epochIdentifier n)
  obtain ⟨s₁, hs₁, hframe⟩ : ∃ s₁, commit s (afterEpochEnd env epochIdentifier n s) = s₁ ∧
      RecordFrame s s₁ := by
    rcases h : afterEpochEnd env epochIdentifier n s with _ | s₁
    · exact ⟨s, rfl, .refl s⟩
    · exact ⟨s₁, rfl, afterEpochEnd_recordFrame env hid h⟩
  obtain ⟨l, hl⟩ := beforeEpochStart_eq env epochIdentifier (n + 1) s₁
  have hstep : step env s (.epochTick epochIdentifier n) = { s₁ with cValueUpdates := l } := by
    simp only [step, epochTick, hs₁, if_neg hid, hl]
  rw [hstep] at hseq ⊢
  exact ⟨.of_eq hs hseq hframe.deposits hframe.registry hframe.delegationEpochNumber
    hframe.nextSequenceSend hframe.commitments, balance_congr hframe.registry⟩

/-- Once every deposit is of an epoch up to `n`, `BeforeEpochStart(n + 1)` creates pending
deposits of epoch `n + 1` under fresh keys: the transfer invariant and the ledger are kept, every
deposit is of an epoch up to `n + 1`, and those of `n + 1` are pending. -/
theorem createDeposits_nextEpoch {s s' : State} {n : Int} {l : List String}
    (hs' : s' = { ({ s with delegationEpochNumber := n + 1 }.createDeposits env (n + 1)) with
      cValueUpdates := l })
    (hle : ∀ k d, s.deposits.get? k = some d → d.epoch ≤ n) (htr : TransferInvariant s) :
    TransferInvariant s' ∧
      (∀ k d, s'.deposits.get? k = some d → d.epoch ≤ s'.delegationEpochNumber) ∧
      (∀ k d, s'.deposits.get? k = some d → d.epoch = s'.delegationEpochNumber →
        d.state = .depositPending) ∧
      s'.ledger = s.ledger := by
  subst hs'
  have hcreate := createDeposits_get? env { s with delegationEpochNumber := n + 1 } (n + 1)
  refine ⟨htr.of_ids (fun c => by simp) (fun p hp => by simpa using hp) fun k d' h hid => ?_,
    fun k d h => ?_, fun k d h he => ?_, ?_⟩
  · rcases hcreate k with he | ⟨-, d₀, h₀, -, hid₀⟩
    · exact ⟨d', he ▸ h, rfl, rfl⟩
    · obtain rfl := Option.some.inj (h₀.symm.trans h)
      exact absurd hid₀ hid
  · simp only [State.createDeposits_delegationEpochNumber]
    rcases hcreate k with he | ⟨hk, d₀, h₀, -⟩
    · have := hle k d (he ▸ h)
      omega
    · obtain rfl := Option.some.inj (h₀.symm.trans h)
      rw [← hk, ← ((State.deposits _).get?_eq_some_iff.mp h).2]
      exact le_rfl
  · simp only [State.createDeposits_delegationEpochNumber] at he
    rcases hcreate k with he' | ⟨-, d₀, h₀, hp, -⟩
    · have := hle k d (he' ▸ h)
      omega
    · obtain rfl := Option.some.inj (h₀.symm.trans h)
      exact hp
  · refine ledger_eq (balance_congr (registry_congr (by simp)))
      (createDeposits_sameReceived env fun k d h he hr => ?_)
    have := hle k d h
    omega

/-- The current delegation epoch `n` ends: `AfterEpochEnd(n)` sends or removes deposits of epochs
up to `n`, the epoch number moves to `n + 1`, and `BeforeEpochStart(n + 1)` creates pending
deposits of epoch `n + 1`, under keys no deposit held. -/
theorem epochTick_delegation_ledgerStep {s : State} (hs : EpochInvariant s) {n : Int}
    (hn : n = s.delegationEpochNumber) :
    LedgerStep s (step env s (.epochTick env.delegationEpoch n)) ∧
      (step env s (.epochTick env.delegationEpoch n)).balance = s.balance := by
  have hseq := step_invariant env hs.sequence (.epochTick env.delegationEpoch n)
  obtain ⟨s₁, hs₁, heff⟩ : ∃ s₁, commit s (afterEpochEnd env env.delegationEpoch n s) = s₁ ∧
      EpochEffect n s s₁ := by
    rcases h : afterEpochEnd env env.delegationEpoch n s with _ | s₁
    · exact ⟨s, rfl, .refl n s⟩
    · exact ⟨s₁, rfl, afterEpochEnd_epochEffect env h⟩
  obtain ⟨l, hl⟩ := beforeEpochStart_eq env env.delegationEpoch (n + 1)
    { s₁ with delegationEpochNumber := n + 1 }
  have hstep : step env s (.epochTick env.delegationEpoch n) =
      { ({ s₁ with delegationEpochNumber := n + 1 }.createDeposits env (n + 1)) with
        cValueUpdates := l } := by
    simp only [step, epochTick, hs₁, eq_self_iff_true, if_true, hl]
  rw [hstep] at hseq ⊢
  -- after `AfterEpochEnd(n)` every deposit is of an epoch up to `n`
  have hle : ∀ k d', s₁.deposits.get? k = some d' → d'.epoch ≤ n := fun k d' h => by
    obtain ⟨d, hd, he, -⟩ := RowChange.some_right (h ▸ heff.rows k)
    rw [he, hn]
    exact hs.epoch_le k d hd
  obtain ⟨htr, hle', hpending, hledger⟩ :=
    createDeposits_nextEpoch env rfl hle (heff.transfer hs.transfer)
  refine ⟨⟨⟨hseq, htr, hle', hpending⟩, hledger.trans heff.ledger, fun k => ?_⟩,
    balance_congr ((registry_congr (by simp)).trans heff.registry)⟩
  -- a deposit of `s` is of an epoch up to `n`, so no deposit of `n + 1` replaces it
  rcases hk : s.deposits.get? k with _ | d
  · exact .of_none _ _
  have hkey := ((s.deposits.get?_eq_some_iff).mp hk).2
  have hepoch := hs.epoch_le k d hk
  rw [(createDeposits_get? env _ (n + 1) k).resolve_right fun ⟨he, _⟩ => by
    rw [← hkey] at he
    change d.epoch = n + 1 at he
    omega, ← hk, ← hn]
  exact (heff.rows k).depositKept

/-! ## Runs -/

/-- Every step the epochs module and the transport allow keeps the invariant and the ledger,
keeps the current epoch's deposits and changes no amount but of a pending deposit of the current
epoch; only an acknowledgement moves a balance. -/
theorem epochStep_ledgerStep {s : State} (hs : EpochInvariant s) {a : Action}
    (ha : a.Allowed env s) :
    LedgerStep s (step env s a) ∧
      ((∀ packet ack err, a ≠ .acknowledgePacket packet ack err) →
        (step env s a).balance = s.balance) := by
  cases a with
  | beforeEpochStart | afterEpochEnd => exact ha.elim
  | epochTick epochIdentifier n =>
    by_cases hid : epochIdentifier = env.delegationEpoch
    · subst hid
      obtain ⟨hstep, hbalance⟩ := epochTick_delegation_ledgerStep env hs (ha rfl)
      exact ⟨hstep, fun _ => hbalance⟩
    · obtain ⟨hstep, hbalance⟩ := epochTick_ledgerStep env hs hid n
      exact ⟨hstep, fun _ => hbalance⟩
  | recvPacket packet ack =>
    obtain ⟨hstep, hbalance⟩ := recvPacket_ledgerStep env hs packet ack
    exact ⟨hstep, fun _ => hbalance⟩
  | acknowledgePacket packet ack err =>
    exact ⟨acknowledgePacket_ledgerStep env hs ha ack err, fun h => absurd rfl (h packet ack err)⟩
  | timeoutPacket packet err =>
    obtain ⟨hstep, hbalance⟩ := timeoutPacket_ledgerStep env hs ha err
    exact ⟨hstep, fun _ => hbalance⟩

theorem epochRun_invariant {s₀ s : State} (h₀ : EpochInvariant s₀)
    (hrun : Relation.ReflTransGen (EpochStep env) s₀ s) : EpochInvariant s ∧ s.ledger = s₀.ledger := by
  induction hrun with
  | refl => exact ⟨h₀, rfl⟩
  | tail _ hstep ih =>
    obtain ⟨a, ha, rfl⟩ := hstep
    have hstep := (epochStep_ledgerStep env ih.1 ha).1
    exact ⟨hstep.invariant, hstep.ledger.trans ih.2⟩

/-- A freshly registered keeper, with no record and nothing in flight, satisfies the invariant. -/
theorem genesis_epochInvariant (hostChains : Table HostChain.chainId) (epoch : Int) :
    EpochInvariant (State.genesis hostChains epoch) where
  sequence := genesis_sequenceInvariant hostChains epoch
  transfer := ⟨fun _ h => absurd h (List.not_mem_nil _), fun _ _ h _ => Option.noConfusion h,
    fun _ h => absurd h (List.not_mem_nil _)⟩
  epoch_le _ _ h := Option.noConfusion h
  current_pending _ _ h := Option.noConfusion h

/-- Along every run the epochs module and the transport allow from a freshly registered keeper,
every registered chain's delegation balance is the balance it was registered with plus the
amounts of its received deposits. -/
theorem genesisRun_balance {hostChains : Table HostChain.chainId} {epoch : Int} {s : State}
    (hrun : Relation.ReflTransGen (EpochStep env) (State.genesis hostChains epoch) s) (c : String) :
    (s.balance c).map (·.amount) =
      (hostChains.get? c).map fun hc => hc.delegationAccount.balance.amount + s.receivedAmount c := by
  have hledger := congrFun (epochRun_invariant env (genesis_epochInvariant hostChains epoch) hrun).2 c
  have hzero : (State.genesis hostChains epoch).receivedAmount c = 0 := rfl
  have hreg : (State.genesis hostChains epoch).hostChains = hostChains := rfl
  simp only [State.ledger, hzero, hreg, sub_zero, State.balance, State.getHostChain,
    Option.map_map] at hledger ⊢
  -- the ledger is kept, so a chain has a balance after the run iff it was registered with one
  rcases hs : s.hostChains.get? c with _ | hc' <;> rcases hg : hostChains.get? c with _ | hc <;>
    simp only [hs, hg, Option.map_none', Option.map_some', Option.some.injEq, Function.comp_apply,
      reduceCtorEq] at hledger ⊢
  omega

theorem genesisRun_balance_epochTick :
    ((step exampleEnv (State.genesis (Table.empty.set chainC) 5) (.epochTick "day" 5)).balance
        "C").map (·.amount) =
      ((Table.empty.set chainC : Table HostChain.chainId).get? "C").map fun hc =>
        hc.delegationAccount.balance.amount +
        (step exampleEnv (State.genesis (Table.empty.set chainC) 5) (.epochTick "day" 5)).receivedAmount
          "C" :=
  genesisRun_balance exampleEnv (.single ⟨.epochTick "day" 5, fun _ => rfl, rfl⟩) "C"

end PstakeNative.LiquidStakeIBC
