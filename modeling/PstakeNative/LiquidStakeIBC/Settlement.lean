import PstakeNative.LiquidStakeIBC.Effects

/-! # Settling a transfer packet

An acknowledgement or a timeout of a packet the deposit module sent settles the packet: every
deposit and LSM deposit carrying the packet's sequence id takes its final state for that packet
(received, or back to pending) and loses the sequence id. The callbacks look the records up by
sequence id, so once a packet is settled no record carries its id any more, and a redelivered
callback finds nothing to do.
-/

namespace PstakeNative.LiquidStakeIBC

/-- A tracked record once the packet with sequence id `sequenceId` is settled to `state`. -/
def settle (sequenceId : String) (state : DepositState) (r : DepositState × String) :
    DepositState × String :=
  if r.2 = sequenceId then (state, "") else r

theorem settle_snd_ne {sequenceId : String} {state : DepositState} {r : DepositState × String}
    (h : sequenceId ≠ "") : (settle sequenceId state r).2 ≠ sequenceId := by
  unfold settle
  split
  · exact Ne.symm h
  · assumption

/-! ## The passes over the records carrying a sequence id -/

section Passes

variable (s : State) (sequenceId : String) (state : DepositState)

/-- Reverting the deposits carrying a sequence id puts them back to pending without it. -/
theorem revertDepositsState_get? (k : String × Int) :
    (s.revertDepositsState (s.getDepositsWithSequenceID sequenceId)).deposits.get? k =
      (s.deposits.get? k).map fun d => if d.ibcSequenceId = sequenceId then
        { d with state := .depositPending, ibcSequenceId := "" } else d := by
  obtain ⟨hset, hframe⟩ := foldl_keyed_final (fun (a : State) k => a.deposits.get? k) Deposit.key
    (fun d => some { d with state := .depositPending, ibcSequenceId := "" })
    (f := fun (s : State) d => s.setDeposit { d with state := .depositPending, ibcSequenceId := "" })
    (s.deposits.nodup_filter _)
    (fun a d _ k hk => by simp only [State.setDeposit_deposits, Table.get?_set]; exact if_neg hk.symm)
    (fun a d _ => by simp only [State.setDeposit_deposits, Table.get?_set]; exact if_pos rfl) s
  refine (Table.get?_of_rewrite (p := fun d => d.ibcSequenceId = sequenceId) hset hframe k).trans ?_
  simp

/-- Updating the LSM deposits carrying a sequence id writes the new state and sequence id into
each of them. -/
theorem updateLSMDepositsStateAndSequence_get? (sequenceId' : String) (k : String × String × String) :
    (s.updateLSMDepositsStateAndSequence (s.getLSMDepositsFromIbcSequenceID sequenceId) state
      sequenceId').lsmDeposits.get? k =
      (s.lsmDeposits.get? k).map fun d => if d.ibcSequenceId = sequenceId then
        { d with state, ibcSequenceId := sequenceId' } else d := by
  obtain ⟨hset, hframe⟩ := foldl_keyed_final (fun (a : State) k => a.lsmDeposits.get? k)
    LSMDeposit.key (fun d => some { d with state, ibcSequenceId := sequenceId' })
    (f := fun (s : State) d => s.setLSMDeposit { d with state, ibcSequenceId := sequenceId' })
    (s.lsmDeposits.nodup_filter _)
    (fun a d _ k hk => by
      simp only [State.setLSMDeposit_lsmDeposits, Table.get?_set]; exact if_neg hk.symm)
    (fun a d _ => by simp only [State.setLSMDeposit_lsmDeposits, Table.get?_set]; exact if_pos rfl) s
  refine (Table.get?_of_rewrite (p := fun d => d.ibcSequenceId = sequenceId) hset hframe k).trans ?_
  simp

theorem revertLSMDepositsState_eq (l : List LSMDeposit) :
    s.revertLSMDepositsState l = s.updateLSMDepositsStateAndSequence l .depositPending "" := rfl

end Passes

/-! ## The effect of an acknowledgement and of a timeout on the records -/

section Tracked

variable {s s' : State} {sequenceId : String} {state : DepositState}

/-- A state whose every deposit and LSM deposit carrying `sequenceId` was settled to `state`,
and whose other records are as before, tracks the settled records. -/
theorem tracked_of_settled
    (hd : ∀ k, s'.deposits.get? k = (s.deposits.get? k).map fun d =>
      if d.ibcSequenceId = sequenceId then { d with state, ibcSequenceId := "" } else d)
    (hl : ∀ k, s'.lsmDeposits.get? k = (s.lsmDeposits.get? k).map fun d =>
      if d.ibcSequenceId = sequenceId then { d with state, ibcSequenceId := "" } else d)
    (k : RecordKey) : s'.tracked k = (s.tracked k).map (settle sequenceId state) := by
  cases k with
  | deposit k =>
    simp only [State.tracked, hd, Option.map_map]
    congr 1; funext d
    by_cases h : d.ibcSequenceId = sequenceId <;> simp [settle, h]
  | lsmDeposit k =>
    simp only [State.tracked, hl, Option.map_map]
    congr 1; funext d
    by_cases h : d.ibcSequenceId = sequenceId <;> simp [settle, h]

variable (env : Env)

/-- Settling one deposit writes no other deposit. -/
theorem ackDeposit_get?_of_ne {A : Int} {a a' : State} {d : Deposit}
    (h : ackDeposit sequenceId A a d = .ok a') {k : String × Int} (hk : k ≠ d.key) :
    a'.deposits.get? k = a.deposits.get? k := by
  obtain ⟨hc, e, -, -, rfl⟩ := ackDeposit_eq_ok h
  simp only [State.emit_deposits, State.setHostChain_deposits, State.setDeposit_deposits,
    Table.get?_set]
  exact if_neg hk.symm

/-- The deposits loop of an acknowledgement settles every deposit carrying the sequence id and
touches no LSM deposit. -/
theorem ackDeposits_settled {A : Int}
    (h : (s.getDepositsWithSequenceID sequenceId).foldlM (ackDeposit sequenceId A) s = .ok s') :
    (∀ k, s'.deposits.get? k = (s.deposits.get? k).map fun d =>
      if d.ibcSequenceId = sequenceId then { d with state := .depositReceived, ibcSequenceId := "" }
      else d) ∧ s'.lsmDeposits = s.lsmDeposits := by
  have hframe : ∀ (a : State) d a', ackDeposit sequenceId A a d = .ok a' →
      ∀ k, k ≠ d.key → a'.deposits.get? k = a.deposits.get? k :=
    fun _ _ _ h _ hk => ackDeposit_get?_of_ne h hk
  have hset : ∀ (a : State) d a', ackDeposit sequenceId A a d = .ok a' →
      a'.deposits.get? d.key = some { d with state := .depositReceived, ibcSequenceId := "" } := by
    intro a d a' h
    obtain ⟨hc, e, -, -, rfl⟩ := ackDeposit_eq_ok h
    simp only [State.emit_deposits, State.setHostChain_deposits, State.setDeposit_deposits,
      Table.get?_set]
    exact if_pos rfl
  constructor
  · obtain ⟨hin, hout⟩ := foldlM_keyed_final (fun (a : State) k => a.deposits.get? k) Deposit.key _
      (s.deposits.nodup_filter _) (fun a d a' _ => hframe a d a') (fun a d a' _ => hset a d a') h
    intro k
    refine (Table.get?_of_rewrite (p := fun d => d.ibcSequenceId = sequenceId) hin hout k).trans ?_
    simp
  · refine foldlM_rel (fun a a' : State => a'.lsmDeposits = a.lsmDeposits) (fun _ => rfl)
      (fun _ _ _ h₁ h₂ => h₂.trans h₁) (fun a d a' _ h => ?_) h
    obtain ⟨hc, e, -, -, rfl⟩ := ackDeposit_eq_ok h
    rfl

/-- A successful acknowledgement of a deposit module transfer settles its packet: every record
carrying the packet's sequence id is received and loses the id. -/
theorem onAcknowledgementIBCTransferPacket_tracked {packet : Packet}
    {acknowledgement : Option Acknowledgement} {transferAckErr : Option String}
    {data : FungibleTokenPacketData} (hdata : packet.data = some data)
    (hsender : data.sender = env.depositModuleAddress)
    (h : onAcknowledgementIBCTransferPacket env packet acknowledgement transferAckErr s = .ok s') :
    ∀ k, s'.tracked k = (s.tracked k).map
      (settle (getTransactionSequenceID packet.sourceChannel packet.sequence) .depositReceived) := by
  obtain ⟨-, ack, data', A, -, -, hdata', -, h⟩ := onAcknowledgementIBCTransferPacket_eq_ok env h
  cases hdata.symm.trans hdata'
  rcases h with ⟨hne, -⟩ | ⟨-, s₁, h₁, h⟩
  · exact absurd hsender hne
  obtain ⟨es, rfl⟩ := emitForChains_eq_ok h
  obtain ⟨hd, hl⟩ := ackDeposits_settled h₁
  have hlsm := updateLSMDepositsStateAndSequence_get? s₁
    (getTransactionSequenceID packet.sourceChannel packet.sequence) .depositReceived ""
  obtain ⟨t, ht⟩ := s₁.updateLSMDepositsStateAndSequence_lsmDeposits_only
    (s₁.getLSMDepositsFromIbcSequenceID (getTransactionSequenceID packet.sourceChannel
      packet.sequence)) .depositReceived ""
  rw [ht] at hlsm ⊢
  exact tracked_of_settled hd (fun k => (hlsm k).trans (by rw [hl]))

/-- A timeout of a deposit module transfer settles its packet: every record carrying the
packet's sequence id is pending again and loses the id. -/
theorem onTimeoutIBCTransferPacket_tracked {packet : Packet} {transferTimeoutErr : Option String}
    {data : FungibleTokenPacketData} (hdata : packet.data = some data)
    (hsender : data.sender = env.depositModuleAddress)
    (h : onTimeoutIBCTransferPacket env packet transferTimeoutErr s = .ok s') :
    ∀ k, s'.tracked k = (s.tracked k).map
      (settle (getTransactionSequenceID packet.sourceChannel packet.sequence) .depositPending) := by
  obtain ⟨-, data', hdata', h⟩ := onTimeoutIBCTransferPacket_eq_ok env h
  cases hdata.symm.trans hdata'
  rcases h with ⟨hne, -⟩ | ⟨-, s₁, h₁, h⟩
  · exact absurd hsender hne
  obtain ⟨es, rfl⟩ := emitForChains_eq_ok h
  obtain ⟨es₁, rfl⟩ := emitForChains_eq_ok h₁
  refine tracked_of_settled (fun k => ?_) (fun k => ?_)
  · simpa [revertLSMDepositsState_eq] using revertDepositsState_get? s _ k
  · rw [revertLSMDepositsState_eq]
    exact (updateLSMDepositsStateAndSequence_get? _ _ _ _ k).trans (by simp)

/-- The callbacks change neither the transport nor the remote calls. -/
theorem onAcknowledgementIBCTransferPacket_frame {packet : Packet}
    {acknowledgement : Option Acknowledgement} {transferAckErr : Option String}
    (h : onAcknowledgementIBCTransferPacket env packet acknowledgement transferAckErr s = .ok s') :
    CallbackFrame s s' := by
  obtain ⟨-, _, _, _, -, -, -, -, (⟨-, rfl⟩ | ⟨-, s₁, h₁, h⟩)⟩ :=
    onAcknowledgementIBCTransferPacket_eq_ok env h
  · exact .refl _
  obtain ⟨es, rfl⟩ := emitForChains_eq_ok h
  refine (foldlM_rel CallbackFrame CallbackFrame.refl (fun _ _ _ => CallbackFrame.trans)
    (fun a d a' _ h => ?_) h₁).trans ⟨by simp, by simp, by simp, by simp⟩
  obtain ⟨hc, e, -, -, rfl⟩ := ackDeposit_eq_ok h
  exact ⟨rfl, rfl, rfl, rfl⟩

theorem onTimeoutIBCTransferPacket_frame {packet : Packet} {transferTimeoutErr : Option String}
    (h : onTimeoutIBCTransferPacket env packet transferTimeoutErr s = .ok s') :
    CallbackFrame s s' := by
  obtain ⟨-, _, -, (⟨-, rfl⟩ | ⟨-, s₁, h₁, h⟩)⟩ := onTimeoutIBCTransferPacket_eq_ok env h
  · exact .refl _
  obtain ⟨es, rfl⟩ := emitForChains_eq_ok h
  obtain ⟨es₁, rfl⟩ := emitForChains_eq_ok h₁
  exact ⟨by simp [revertLSMDepositsState_eq], by simp [revertLSMDepositsState_eq],
    by simp [revertLSMDepositsState_eq], by simp [revertLSMDepositsState_eq]⟩

end Tracked

/-! ## Redelivery -/

section Redelivery

variable {s s' : State} {sequenceId : String} {state : DepositState}

/-- Once a packet is settled no record carries its sequence id, so the lookups by that id find
nothing. -/
theorem lookups_eq_nil_of_settled (hid : sequenceId ≠ "")
    (h : ∀ k, s'.tracked k = (s.tracked k).map (settle sequenceId state)) :
    s'.getDepositsWithSequenceID sequenceId = [] ∧
      s'.getLSMDepositsFromIbcSequenceID sequenceId = [] := by
  have hne : ∀ k r, s'.tracked k = some r → r.2 ≠ sequenceId := fun k r hr => by
    rw [h] at hr
    obtain ⟨r', -, rfl⟩ := Option.map_eq_some'.mp hr
    exact settle_snd_ne hid
  exact ⟨List.filter_eq_nil_iff.mpr fun d hd => by simpa using hne _ _ (tracked_of_mem_deposits s' hd),
    List.filter_eq_nil_iff.mpr fun d hd => by simpa using hne _ _ (tracked_of_mem_lsmDeposits s' hd)⟩

variable (env : Env)

/-- A successful acknowledgement that finds no record carrying its packet's sequence id changes
nothing. -/
theorem onAcknowledgementIBCTransferPacket_of_unmatched {packet : Packet} {ack : Acknowledgement}
    {data : FungibleTokenPacketData} {A : Int} (hsucc : ack.success = true)
    (hdata : packet.data = some data) (hA : env.intFromString.parse data.amount = some A)
    (hd : s.getDepositsWithSequenceID
      (getTransactionSequenceID packet.sourceChannel packet.sequence) = [])
    (hl : s.getLSMDepositsFromIbcSequenceID
      (getTransactionSequenceID packet.sourceChannel packet.sequence) = []) :
    onAcknowledgementIBCTransferPacket env packet (some ack) none s = .ok s := by
  simp only [onAcknowledgementIBCTransferPacket, required_some, pure_bind, hsucc, hdata, hA, hd, hl,
    required, List.foldlM_nil, State.updateLSMDepositsStateAndSequence, List.foldl_nil,
    List.map_nil, emitForChains, Bool.not_true, Bool.false_eq_true, if_false]
  split_ifs <;> rfl

/-- A timeout that finds no record carrying its packet's sequence id changes nothing. -/
theorem onTimeoutIBCTransferPacket_of_unmatched {packet : Packet} {data : FungibleTokenPacketData}
    (hdata : packet.data = some data)
    (hd : s.getDepositsWithSequenceID
      (getTransactionSequenceID packet.sourceChannel packet.sequence) = [])
    (hl : s.getLSMDepositsFromIbcSequenceID
      (getTransactionSequenceID packet.sourceChannel packet.sequence) = []) :
    onTimeoutIBCTransferPacket env packet none s = .ok s := by
  simp only [onTimeoutIBCTransferPacket, required_some, pure_bind, hdata, hd,
    State.revertDepositsState, List.foldl_nil, emitForChains, List.map_nil, List.foldlM_nil]
  split_ifs
  · simp only [pure_bind, hl, State.revertLSMDepositsState, List.foldl_nil, List.map_nil,
      List.foldlM_nil]
    rfl
  · rfl

/-- A redelivered acknowledgement or timeout succeeds and changes nothing: the first delivery
settled every record carrying the packet's sequence id. -/
theorem settlement_idempotent (packet : Packet) (acknowledgement : Option Acknowledgement)
    (transferErr : Option String) (s s' : State) :
    (onAcknowledgementIBCTransferPacket env packet acknowledgement transferErr s = .ok s' →
      onAcknowledgementIBCTransferPacket env packet acknowledgement transferErr s' = .ok s') ∧
    (onTimeoutIBCTransferPacket env packet transferErr s = .ok s' →
      onTimeoutIBCTransferPacket env packet transferErr s' = .ok s') := by
  have hid := getTransactionSequenceID_ne_empty packet.sourceChannel packet.sequence
  constructor
  · intro h
    obtain ⟨rfl, ack, data, A, rfl, hsucc, hdata, hA, hcase⟩ :=
      onAcknowledgementIBCTransferPacket_eq_ok env h
    rcases hcase with ⟨-, rfl⟩ | ⟨hsender, -⟩
    · exact h
    obtain ⟨hd, hl⟩ := lookups_eq_nil_of_settled hid
      (onAcknowledgementIBCTransferPacket_tracked env hdata hsender h)
    exact onAcknowledgementIBCTransferPacket_of_unmatched env hsucc hdata hA hd hl
  · intro h
    obtain ⟨rfl, data, hdata, hcase⟩ := onTimeoutIBCTransferPacket_eq_ok env h
    rcases hcase with ⟨-, rfl⟩ | ⟨hsender, -⟩
    · exact h
    obtain ⟨hd, hl⟩ := lookups_eq_nil_of_settled hid
      (onTimeoutIBCTransferPacket_tracked env hdata hsender h)
    exact onTimeoutIBCTransferPacket_of_unmatched env hdata hd hl

end Redelivery

/-! ## The outcomes of a sent record's packet -/

section Outcomes

variable (env : Env)

/-- The packet the keeper of the spec's scenario sends for chain `C`'s epoch-5 deposit of 100. -/
def depositPacket : Packet :=
  ⟨1, "channel-0", some ⟨"ibc/ATOM", "100", "deposit", "cosmos1del", ""⟩⟩

theorem settlement_idempotent_depositPacket :
    ∃ s', onAcknowledgementIBCTransferPacket exampleEnv depositPacket (some (.result [1])) none
        (step exampleEnv (exampleState 100) (.afterEpochEnd "day" 5)) = .ok s' ∧
      onAcknowledgementIBCTransferPacket exampleEnv depositPacket (some (.result [1])) none s' =
        .ok s' :=
  ⟨_, rfl, (settlement_idempotent exampleEnv depositPacket (some (.result [1])) none
    (step exampleEnv (exampleState 100) (.afterEpochEnd "day" 5)) _).1 rfl⟩

end Outcomes

end PstakeNative.LiquidStakeIBC
