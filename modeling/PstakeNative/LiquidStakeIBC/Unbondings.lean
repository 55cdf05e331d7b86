import PstakeNative.LiquidStakeIBC.ChainIsolation

/-! # The life of an unbonding

An unbonding is a chain's undelegation bucket for one unbonding epoch, stored under the two. Of the
epoch hooks and transfer callbacks only two write one. `UndelegationWorkflow` marks the bucket of
the current unbonding epoch failed, or initiated under its transaction's sequence id, whatever
state the bucket is in; and an inbound transfer from a chain's delegation account to the
undelegation module marks every matured unbonding of the chain claimable, whatever amount it
carries. Neither creates or removes an unbonding, and nothing else writes one. So over any run of
the keeper each unbonding keeps its amounts, never moves back to pending, maturing or matured, and
is claimable only as it was or as the claim of its matured self.
-/

namespace PstakeNative.LiquidStakeIBC

/-! ## The writes to one unbonding -/

/-- The keeper's writes to the unbonding stored under one key. -/
inductive UnbondingChange : Option Unbonding → Option Unbonding → Prop
  /-- `UndelegationWorkflow` could not submit the bucket's undelegation. -/
  | fail (u : Unbonding) : UnbondingChange (some u) (some { u with state := .unbondingFailed })
  /-- `UndelegationWorkflow` submitted the bucket's undelegation. -/
  | initiate (u : Unbonding) (sequenceId : String) :
      UnbondingChange (some u)
        (some { u with ibcSequenceId := sequenceId, state := .unbondingInitiated })
  /-- The undelegated tokens of a matured unbonding arrived at the undelegation module. -/
  | claim (u : Unbonding) (hmatured : u.state = .unbondingMatured) :
      UnbondingChange (some u) (some { u with ibcSequenceId := "", state := .unbondingClaimable })

/-- What an unbonding `u₀` can have become: its amounts are kept, the states other modules set
(pending, maturing, matured) are never entered, and it is claimable only as it was or as the
claim of its matured self. -/
structure UnbondingFrom (u₀ u : Unbonding) : Prop where
  burnAmount : u.burnAmount = u₀.burnAmount
  unbondAmount : u.unbondAmount = u₀.unbondAmount
  entered : u.state = .unbondingPending ∨ u.state = .unbondingMaturing ∨
    u.state = .unbondingMatured → u = u₀
  claimable : u.state = .unbondingClaimable → u = u₀ ∨
    u₀.state = .unbondingMatured ∧ u = { u₀ with ibcSequenceId := "", state := .unbondingClaimable }

namespace UnbondingFrom

theorem refl (u : Unbonding) : UnbondingFrom u u := ⟨rfl, rfl, fun _ => rfl, fun _ => .inl rfl⟩

/-- One write keeps what `u₀` can have become. -/
theorem change {u₀ u u' : Unbonding} (hu : UnbondingFrom u₀ u)
    (hc : UnbondingChange (some u) (some u')) : UnbondingFrom u₀ u' := by
  cases hc with
  | fail => exact ⟨hu.burnAmount, hu.unbondAmount, by simp, by simp⟩
  | initiate => exact ⟨hu.burnAmount, hu.unbondAmount, by simp, by simp⟩
  | claim _ hmatured =>
    obtain rfl := hu.entered (.inr (.inr hmatured))
    exact ⟨rfl, rfl, by simp, fun _ => .inr ⟨hmatured, rfl⟩⟩

end UnbondingFrom

/-- The writes reach from an unbonding only what it can have become. -/
theorem unbondingFrom_of_reaches {u₀ : Unbonding} {v : Option Unbonding}
    (h : Relation.ReflTransGen UnbondingChange (some u₀) v) :
    ∃ u, v = some u ∧ UnbondingFrom u₀ u := by
  induction h with
  | refl => exact ⟨u₀, rfl, .refl u₀⟩
  | tail _ hc ih =>
    obtain ⟨u, rfl, hu⟩ := ih
    cases hc with
    | fail => exact ⟨_, rfl, hu.change (.fail u)⟩
    | initiate _ sequenceId => exact ⟨_, rfl, hu.change (.initiate u sequenceId)⟩
    | claim _ hmatured => exact ⟨_, rfl, hu.change (.claim u hmatured)⟩

/-- No write creates an unbonding. -/
theorem none_of_reaches {v : Option Unbonding} (h : Relation.ReflTransGen UnbondingChange none v) :
    v = none := by
  induction h with
  | refl => rfl
  | tail _ hc ih => subst ih; cases hc

/-! ## The writes to the unbondings table -/

/-- Each unbonding of `s'` is reached from the one `s` stores under its key by the keeper's
writes. -/
def UnbondingsChange (s s' : State) : Prop :=
  ∀ k, Relation.ReflTransGen UnbondingChange (s.unbondings.get? k) (s'.unbondings.get? k)

theorem State.getUnbonding_key {s : State} {c : String} {e : Int} {u : Unbonding}
    (hu : s.getUnbonding c e = some u) : u.key = (c, e) ∧ s.unbondings.get? u.key = some u :=
  ⟨((s.unbondings.get?_eq_some_iff).mp hu).2,
    Table.get?_key_of_mem ((s.unbondings.get?_eq_some_iff).mp hu).1⟩

namespace UnbondingsChange

variable {s s' : State}

theorem refl (s : State) : UnbondingsChange s s := fun _ => .refl

theorem trans {s₁ s₂ s₃ : State} (h₁ : UnbondingsChange s₁ s₂) (h₂ : UnbondingsChange s₂ s₃) :
    UnbondingsChange s₁ s₃ := fun k => (h₁ k).trans (h₂ k)

theorem of_eq (h : s'.unbondings = s.unbondings) : UnbondingsChange s s' := fun k => by
  rw [h]

/-- One write of an unbonding over the record stored under its key. -/
theorem of_set {u₀ u : Unbonding} (hc : UnbondingChange (some u₀) (some u))
    (hu : s.unbondings.get? u.key = some u₀) (hs' : s'.unbondings = s.unbondings.set u) :
    UnbondingsChange s s' := fun k => by
  rw [hs', Table.get?_set]
  split_ifs with hk
  · subst hk
    rw [hu]
    exact .single hc
  · exact .refl

/-- A hook's writes persist only when it succeeds. -/
theorem commit {x : Except KeeperError State} (h : ∀ s', x = .ok s' → UnbondingsChange s s') :
    UnbondingsChange s (commit s x) := by
  cases x with
  | error => exact .refl s
  | ok s' => exact h s' rfl

end UnbondingsChange

variable (env : Env)

/-! ## The workflows and callbacks that leave the undelegation records alone -/

/-- The records of the keeper's own undelegation and redelegation transactions. -/
def State.submittedRecords (s : State) : Table ValidatorUnbonding.key × Table RedelegateTx.key :=
  (s.validatorUnbondings, s.redelegationTxs)

/-- The unbondings, and the records of the keeper's own undelegation and redelegation
transactions. -/
def State.undelegationRecords (s : State) :
    Table Unbonding.key × Table ValidatorUnbonding.key × Table RedelegateTx.key :=
  (s.unbondings, s.submittedRecords)

theorem UnbondingsChange.of_records {s s' : State}
    (h : s'.undelegationRecords = s.undelegationRecords) : UnbondingsChange s s' :=
  .of_eq (congrArg Prod.fst h)

section Frames

variable {s s' : State}

@[simp]
theorem State.revertDepositsState_undelegationRecords (deposits : List Deposit) :
    (s.revertDepositsState deposits).undelegationRecords = s.undelegationRecords := by
  obtain ⟨t, h⟩ := s.revertDepositsState_deposits_only deposits
  rw [h]; rfl

@[simp]
theorem State.updateLSMDepositsStateAndSequence_undelegationRecords (deposits : List LSMDeposit)
    (state : DepositState) (sequenceId : String) :
    (s.updateLSMDepositsStateAndSequence deposits state sequenceId).undelegationRecords =
      s.undelegationRecords := by
  obtain ⟨t, h⟩ := s.updateLSMDepositsStateAndSequence_lsmDeposits_only deposits state sequenceId
  rw [h]; rfl

theorem submitTransfer_undelegationRecords {c : String} {k : RecordKey} {msg : MsgTransfer}
    {r : Option Nat} (h : s.submitTransfer env c k msg = (r, s')) :
    s'.undelegationRecords = s.undelegationRecords := by
  rcases submitTransfer_cases s env h with ⟨-, rfl | rfl⟩ | ⟨-, rfl⟩ <;> rfl

theorem depositWorkflow_undelegationRecords {epoch : Int}
    (h : depositWorkflow env epoch s = .ok s') : s'.undelegationRecords = s.undelegationRecords := by
  refine foldlM_view State.undelegationRecords (fun a d a' _ h => ?_) h
  rcases depositWorkflowStep_cases env h with rfl | ⟨-, -, rfl⟩ | ⟨_, _, _, -, -, -, hsub, hr⟩
  · rfl
  · rfl
  have hsent := submitTransfer_undelegationRecords env hsub
  rcases hr with ⟨-, rfl⟩ | ⟨_, _, -, rfl⟩ <;> exact hsent

theorem lsmWorkflow_undelegationRecords (h : lsmWorkflow env s = .ok s') :
    s'.undelegationRecords = s.undelegationRecords := by
  refine foldlM_view State.undelegationRecords (fun a hc a' _ h => ?_) h
  rcases lsmWorkflowChain_cases env h with rfl | ⟨-, -, s₁, total, hloop, rfl⟩
  · rfl
  refine foldlM_view (fun a : State × LegacyDec => a.1.undelegationRecords)
    (fun b d b' _ h => ?_) hloop
  obtain ⟨b, total⟩ := b
  obtain ⟨b', total'⟩ := b'
  obtain ⟨_, _, s₂, hsub, ⟨-, rfl⟩ | ⟨_, -, rfl⟩⟩ := lsmWorkflowStep_cases env h
  · exact submitTransfer_undelegationRecords env hsub
  · exact (State.updateLSMDepositsStateAndSequence_undelegationRecords ..).trans
      (submitTransfer_undelegationRecords env hsub)

theorem validatorUndelegationLoop_unbondings {epoch : Int} (vs : List Validator) {hc : HostChain}
    {returned : Bool} (h : validatorUndelegationLoop env epoch vs hc s = .ok (returned, s')) :
    s'.unbondings = s.unbondings := by
  induction vs generalizing hc s with
  | nil =>
    cases (Prod.mk.inj (pure_eq_ok.mp h)).2
    rfl
  | cons v rest ih =>
    simp only [validatorUndelegationLoop] at h
    split_ifs at h
    · exact ih h
    obtain ⟨amount, -, h⟩ := bind_eq_ok.mp h
    simp only [State.generateAndExecuteICATx] at h
    rcases hica : env.icaOutcome s.calls with _ | sequenceId <;> rw [hica] at h
    · cases (Prod.mk.inj (pure_eq_ok.mp h)).2
      rfl
    obtain ⟨_, -, h⟩ := bind_eq_ok.mp h
    exact (ih h).trans rfl

theorem validatorUndelegationChains_unbondings {epoch : Int} (chains : List HostChain)
    (h : validatorUndelegationChains env epoch chains s = .ok s') : s'.unbondings = s.unbondings := by
  induction chains generalizing s with
  | nil =>
    cases pure_eq_ok.mp h
    rfl
  | cons hc rest ih =>
    simp only [validatorUndelegationChains] at h
    split_ifs at h
    · exact ih h
    · exact ih h
    obtain ⟨⟨returned, s₁⟩, hloop, h⟩ := bind_eq_ok.mp h
    have h₁ := validatorUndelegationLoop_unbondings env hc.validators hloop
    split_ifs at h
    · cases pure_eq_ok.mp h
      exact h₁
    · exact (ih h).trans h₁

theorem rewardsWorkflow_undelegationRecords (epoch : Int) (s : State) :
    (rewardsWorkflow env epoch s).undelegationRecords = s.undelegationRecords := by
  refine foldl_view State.undelegationRecords (fun a hc _ => ?_) s
  have hqueries : ∀ a : State,
      (rewardsAccountQueries env hc a).undelegationRecords = a.undelegationRecords := by
    intro a
    unfold rewardsAccountQueries
    split
    · split_ifs <;> rfl
    · rfl
  unfold rewardsWorkflowChain
  split_ifs
  · rfl
  · simp only [State.generateAndExecuteICATx]
    rcases env.icaOutcome a.calls with _ | _
    · rfl
    · exact hqueries _
  · exact hqueries a

theorem rebalanceWorkflow_unbondings (epoch : Int) (s : State) :
    (rebalanceWorkflow env epoch s).unbondings = s.unbondings := by
  refine foldl_view State.unbondings (fun a hc _ => ?_) s
  unfold rebalanceWorkflowChain
  split_ifs
  · rfl
  refine foldl_view State.unbondings (fun b msg _ => ?_) a
  unfold rebalanceWorkflowStep
  simp only [State.generateAndExecuteICATx]
  rcases env.icaOutcome b.calls with _ | _ <;> rfl

theorem beforeEpochStart_undelegationRecords (epochIdentifier : String) (e : Int) (s : State) :
    (beforeEpochStart env epochIdentifier e s).undelegationRecords = s.undelegationRecords := by
  obtain ⟨l, hl⟩ := beforeEpochStart_eq env epochIdentifier e s
  rw [hl]
  split_ifs
  · obtain ⟨t, ht⟩ := s.createDeposits_deposits_only env e
    rw [ht]; rfl
  · rfl

theorem recvValidatorUnbondingTransfer_undelegationRecords {hc : HostChain}
    {data : FungibleTokenPacketData} (h : recvValidatorUnbondingTransfer env hc data s = .ok s') :
    s'.undelegationRecords = s.undelegationRecords := by
  rcases recvValidatorUnbondingTransfer_eq_ok env h with rfl | ⟨-, -, -, -, -, -, rfl⟩ <;> rfl

theorem recvAutocompoundTransfer_undelegationRecords {hc : HostChain}
    {data : FungibleTokenPacketData} (h : recvAutocompoundTransfer env hc data s = .ok s') :
    s'.undelegationRecords = s.undelegationRecords := by
  rcases recvAutocompoundTransfer_eq_ok env h with ⟨-, rfl⟩ | ⟨_, _, _, _, _, -, -, -, -, -, rfl⟩ <;>
    rfl

theorem onAcknowledgementIBCTransferPacket_undelegationRecords {packet : Packet}
    {acknowledgement : Option Acknowledgement} {transferAckErr : Option String}
    (h : onAcknowledgementIBCTransferPacket env packet acknowledgement transferAckErr s = .ok s') :
    s'.undelegationRecords = s.undelegationRecords := by
  obtain ⟨-, _, _, _, -, -, -, -, ⟨-, rfl⟩ | ⟨-, s₁, h₁, h₂⟩⟩ :=
    onAcknowledgementIBCTransferPacket_eq_ok env h
  · rfl
  obtain ⟨es, rfl⟩ := emitForChains_eq_ok h₂
  refine (State.updateLSMDepositsStateAndSequence_undelegationRecords ..).trans
    (foldlM_view State.undelegationRecords (fun a d a' _ h => ?_) h₁)
  obtain ⟨_, _, -, -, rfl⟩ := ackDeposit_eq_ok h
  rfl

theorem onTimeoutIBCTransferPacket_undelegationRecords {packet : Packet}
    {transferTimeoutErr : Option String}
    (h : onTimeoutIBCTransferPacket env packet transferTimeoutErr s = .ok s') :
    s'.undelegationRecords = s.undelegationRecords := by
  obtain ⟨-, _, -, ⟨-, rfl⟩ | ⟨-, s₁, h₁, h₂⟩⟩ := onTimeoutIBCTransferPacket_eq_ok env h
  · rfl
  obtain ⟨es, rfl⟩ := emitForChains_eq_ok h₂
  obtain ⟨es', rfl⟩ := emitForChains_eq_ok h₁
  exact (State.updateLSMDepositsStateAndSequence_undelegationRecords ..).trans
    (State.revertDepositsState_undelegationRecords ..)

end Frames

/-! ## The undelegation workflow -/

/-- The bucket `UndelegationWorkflow` undelegates for a chain at `epoch`: the chain is active and
on one of its unbonding epochs, and its bucket of the current unbonding epoch holds a positive
amount. The bucket's state is not read. -/
def UndelegationDue (epoch : Int) (s : State) (hc : HostChain) (u : Unbonding) : Prop :=
  hc.active = true ∧ env.isUnbondingEpoch hc.unbondingFactor epoch = true ∧
    s.getUnbonding hc.chainId (env.currentUnbondingEpoch hc.unbondingFactor epoch) = some u ∧
    0 < u.unbondAmount.amount

/-- What the workflow leaves of a due bucket `u`: failed, or initiated under its transaction's
sequence id. -/
def UndelegationOutcome (u u' : Unbonding) : Prop :=
  u' = { u with state := .unbondingFailed } ∨
    ∃ sequenceId, u' = { u with ibcSequenceId := sequenceId, state := .unbondingInitiated }

namespace UndelegationOutcome

variable {u u' : Unbonding}

theorem change (h : UndelegationOutcome u u') : UnbondingChange (some u) (some u') := by
  rcases h with rfl | ⟨sequenceId, rfl⟩
  · exact .fail u
  · exact .initiate u sequenceId

theorem key (h : UndelegationOutcome u u') : u'.key = u.key := by
  rcases h with rfl | ⟨_, rfl⟩ <;> rfl

end UndelegationOutcome

section Undelegation

variable {epoch : Int} {s s' : State} {hc : HostChain}

/-- A chain's pass changes nothing when its bucket is not due. -/
theorem undelegationWorkflowChain_of_not_due (hnot : ∀ u, ¬UndelegationDue env epoch s hc u)
    (h : undelegationWorkflowChain env epoch s hc = .ok s') : s' = s := by
  unfold undelegationWorkflowChain at h
  split_ifs at h with hact hep
  · exact (pure_eq_ok.mp h).symm
  · exact (pure_eq_ok.mp h).symm
  split at h
  · exact (pure_eq_ok.mp h).symm
  next u hu =>
  split_ifs at h with hpos
  · exact (pure_eq_ok.mp h).symm
  exact absurd ⟨by simpa using hact, by simpa using hep, hu, by simpa using hpos⟩ (hnot u)

/-- A chain's pass over a due bucket writes the bucket's outcome, and no other unbonding. -/
theorem undelegationWorkflowChain_of_due {u : Unbonding} (hdue : UndelegationDue env epoch s hc u)
    (h : undelegationWorkflowChain env epoch s hc = .ok s') :
    ∃ u', UndelegationOutcome u u' ∧ s'.unbondings = s.unbondings.set u' := by
  obtain ⟨hact, hep, hu, hpos⟩ := hdue
  simp only [undelegationWorkflowChain, hact, hep, hu, hpos, Bool.not_true, decide_True,
    Bool.false_eq_true, if_false, State.generateAndExecuteICATx] at h
  rcases hmsgs : env.generateUndelegateMessages hc u.unbondAmount.amount with _ | msgs <;>
    simp only [hmsgs] at h
  · cases pure_eq_ok.mp h
    exact ⟨_, .inl rfl, rfl⟩
  rcases hica : env.icaOutcome s.calls with _ | sequenceId <;> simp only [hica] at h
  · cases pure_eq_ok.mp h
    exact ⟨_, .inl rfl, rfl⟩
  simp only [bind_eq_ok, liftPanic_eq_ok] at h
  obtain ⟨_, -, _, -, h⟩ := h
  cases pure_eq_ok.mp h
  exact ⟨_, .inr ⟨sequenceId, rfl⟩, rfl⟩

theorem undelegationWorkflowChain_unbondingsChange
    (h : undelegationWorkflowChain env epoch s hc = .ok s') : UnbondingsChange s s' := by
  by_cases hdue : ∃ u, UndelegationDue env epoch s hc u
  · obtain ⟨u, hdue⟩ := hdue
    obtain ⟨u', hout, hs'⟩ := undelegationWorkflowChain_of_due env hdue h
    exact .of_set hout.change (hout.key ▸ (State.getUnbonding_key hdue.2.2.1).2) hs'
  · obtain rfl := undelegationWorkflowChain_of_not_due env (fun u hu => hdue ⟨u, hu⟩) h
    exact .refl _

theorem undelegationWorkflow_unbondingsChange (h : undelegationWorkflow env epoch s = .ok s') :
    UnbondingsChange s s' :=
  foldlM_rel UnbondingsChange UnbondingsChange.refl (fun _ _ _ => UnbondingsChange.trans)
    (fun _ _ _ _ h => undelegationWorkflowChain_unbondingsChange env h) h

/-- A chain's pass, started with the chain's unbondings as the workflow found them in `s₀`,
settles the chain's due bucket and keeps the chain's other unbondings. -/
theorem undelegationWorkflowChain_settles {s₀ : State}
    (hget : ∀ e, s.getUnbonding hc.chainId e = s₀.getUnbonding hc.chainId e)
    (h : undelegationWorkflowChain env epoch s hc = .ok s') :
    (∀ u, UndelegationDue env epoch s₀ hc u → ∃ u', UndelegationOutcome u u' ∧
      s'.getUnbonding hc.chainId (env.currentUnbondingEpoch hc.unbondingFactor epoch) = some u') ∧
    ∀ e, (∀ u, UndelegationDue env epoch s₀ hc u → u.key ≠ (hc.chainId, e)) →
      s'.getUnbonding hc.chainId e = s₀.getUnbonding hc.chainId e := by
  have hdue_iff : ∀ u, UndelegationDue env epoch s hc u ↔ UndelegationDue env epoch s₀ hc u :=
    fun u => by simp only [UndelegationDue, hget]
  by_cases hdue : ∃ u, UndelegationDue env epoch s₀ hc u
  · obtain ⟨u, hu⟩ := hdue
    obtain ⟨u', hout, hs'⟩ := undelegationWorkflowChain_of_due env ((hdue_iff u).mpr hu) h
    have hkey := (State.getUnbonding_key hu.2.2.1).1
    refine ⟨fun u₂ hu₂ => ?_, fun e he => ?_⟩
    · obtain rfl : u₂ = u := Option.some.inj (hu₂.2.2.1.symm.trans hu.2.2.1)
      refine ⟨u', hout, ?_⟩
      rw [State.getUnbonding, hs', Table.get?_set, if_pos (hout.key.trans hkey)]
    · rw [State.getUnbonding, hs', Table.get?_set,
        if_neg fun hk => he u hu (hout.key.symm.trans hk)]
      exact hget e
  · obtain rfl := undelegationWorkflowChain_of_not_due env
      (fun u hu => hdue ⟨u, (hdue_iff u).mp hu⟩) h
    exact ⟨fun u hu => absurd ⟨u, hu⟩ hdue, fun e _ => hget e⟩

/-- `UndelegationWorkflow` settles every due bucket of the registered chains, failed or initiated
by its transaction's outcome and whatever state it was in, and leaves every other unbonding as
it was. -/
theorem undelegationWorkflow_unbondings (h : undelegationWorkflow env epoch s = .ok s') :
    (∀ hc ∈ s.getAllHostChains, ∀ u, UndelegationDue env epoch s hc u →
      ∃ u', UndelegationOutcome u u' ∧ s'.unbondings.get? u.key = some u') ∧
    ∀ k, (∀ hc ∈ s.getAllHostChains, ∀ u, UndelegationDue env epoch s hc u → u.key ≠ k) →
      s'.unbondings.get? k = s.unbondings.get? k := by
  -- each chain's pass writes only under the chain's id, and finds there what the workflow found
  obtain ⟨hin, hout⟩ := foldlM_keyed_post (fun (a : State) c e => a.getUnbonding c e)
    HostChain.chainId
    (fun hc v => (∀ u, UndelegationDue env epoch s hc u → ∃ u', UndelegationOutcome u u' ∧
        v (env.currentUnbondingEpoch hc.unbondingFactor epoch) = some u') ∧
      ∀ e, (∀ u, UndelegationDue env epoch s hc u → u.key ≠ (hc.chainId, e)) →
        v e = s.getUnbonding hc.chainId e)
    s.hostChains.nodup
    (fun a hc a' _ h c hc' => funext fun e => undelegationWorkflowChain_getUnbonding env h hc' e)
    (fun a hc a' _ hv h => undelegationWorkflowChain_settles env (congrFun hv) h) h
  refine ⟨fun hc hhc u hu => ?_, fun ⟨c, e⟩ hk => ?_⟩
  · obtain ⟨u', hout, hu'⟩ := (hin hc hhc).1 u hu
    exact ⟨u', hout, by rw [(State.getUnbonding_key hu.2.2.1).1]; exact hu'⟩
  · by_cases hreg : ∃ hc ∈ s.getAllHostChains, hc.chainId = c
    · obtain ⟨hc, hhc, rfl⟩ := hreg
      exact (hin hc hhc).2 e (hk hc hhc)
    · exact congrFun (hout c fun hmem => hreg (by simpa using hmem)) e

/-- With `A`'s transaction failing, `UndelegationWorkflow` marks `A`'s bucket failed and `B`'s
initiated. -/
theorem undelegationWorkflow_unbondings_failFirst :
    ∃ s', undelegationWorkflow (forceUnbondEnv failFirst) 10 twoBucketState = .ok s' ∧
      (∀ hc ∈ twoBucketState.getAllHostChains, ∀ u,
        UndelegationDue (forceUnbondEnv failFirst) 10 twoBucketState hc u →
          ∃ u', UndelegationOutcome u u' ∧ s'.unbondings.get? u.key = some u') ∧
      ∀ k, (∀ hc ∈ twoBucketState.getAllHostChains, ∀ u,
        UndelegationDue (forceUnbondEnv failFirst) 10 twoBucketState hc u → u.key ≠ k) →
          s'.unbondings.get? k = twoBucketState.unbondings.get? k :=
  ⟨_, rfl, undelegationWorkflow_unbondings (forceUnbondEnv failFirst) rfl⟩

end Undelegation

/-! ## The undelegation branch of an inbound transfer -/

section Claim

variable {s s' : State} {hc : HostChain} {data : FungibleTokenPacketData}

/-- The transfer from a chain's delegation account to the undelegation module marks every matured
unbonding of the chain claimable with its sequence id cleared, and leaves the others alone. -/
theorem recvUndelegationTransfer_get? (hfrom : data.sender = hc.delegationAccount.address)
    (hto : data.receiver = env.undelegationModuleAddress) (hmemo : data.memo = "")
    (h : recvUndelegationTransfer env hc data s = .ok s') (k : String × Int) :
    s'.unbondings.get? k = (s.unbondings.get? k).map fun u =>
      if u.chainId = hc.chainId ∧ u.state = .unbondingMatured then
        { u with ibcSequenceId := "", state := .unbondingClaimable } else u := by
  rw [recvUndelegationTransfer, if_pos ⟨hfrom, hto, hmemo⟩] at h
  have hstep : ∀ (a : State) (u : Unbonding) a', (do
      let s := a.setUnbonding { u with ibcSequenceId := "", state := .unbondingClaimable }
      let amount ← liftPanic (newCoin env.validDenom hc.hostDenom u.unbondAmount.amount)
      pure (s.emit (.unbondingMaturedReceived hc.chainId u.epochNumber amount)) :
        Except KeeperError State) = .ok a' →
      a'.unbondings = a.unbondings.set { u with ibcSequenceId := "", state := .unbondingClaimable } :=
    fun a u a' h => by
      obtain ⟨_, -, h⟩ := bind_eq_ok.mp h
      cases pure_eq_ok.mp h
      rfl
  obtain ⟨hset, hframe⟩ := foldlM_keyed_final (fun (a : State) k => a.unbondings.get? k)
    Unbonding.key (fun u => some { u with ibcSequenceId := "", state := .unbondingClaimable })
    (s.unbondings.nodup_filter _)
    (fun a u a' _ h k hk => by simp only [hstep a u a' h, Table.get?_set]; exact if_neg hk.symm)
    (fun a u a' _ h => by simp only [hstep a u a' h, Table.get?_set]; exact if_pos rfl) h
  refine (Table.get?_of_rewrite (p := fun u => u.chainId = hc.chainId ∧
    u.state = .unbondingMatured) hset hframe k).trans ?_
  simp

theorem recvUndelegationTransfer_unbondingsChange
    (h : recvUndelegationTransfer env hc data s = .ok s') : UnbondingsChange s s' := by
  by_cases hcond : data.sender = hc.delegationAccount.address ∧
    data.receiver = env.undelegationModuleAddress ∧ data.memo = ""
  · intro k
    rw [recvUndelegationTransfer_get? env hcond.1 hcond.2.1 hcond.2.2 h k]
    cases s.unbondings.get? k with
    | none => exact .refl
    | some u =>
      rw [Option.map_some']
      split_ifs with hp
      · exact .single (.claim u hp.2)
      · exact .refl
  · rw [recvUndelegationTransfer, if_neg hcond] at h
    cases pure_eq_ok.mp h
    exact .refl s

theorem onRecvIBCTransferPacket_unbondingsChange {packet : Packet} {transferAck : Acknowledgement}
    (h : onRecvIBCTransferPacket env packet transferAck s = .ok s') : UnbondingsChange s s' := by
  rcases onRecvIBCTransferPacket_eq_ok env h with rfl | ⟨_, _, s₁, s₂, -, -, h₁, h₂, h₃⟩
  · exact .refl _
  exact (recvUndelegationTransfer_unbondingsChange env h₁).trans (.of_records
    ((recvAutocompoundTransfer_undelegationRecords env h₃).trans
      (recvValidatorUnbondingTransfer_undelegationRecords env h₂)))

/-- When the undelegated tokens of a chain arrive, from its delegation account at the
undelegation module with an empty memo, every matured unbonding of the chain becomes claimable
with its sequence id cleared, whatever amount the transfer carries, and every other unbonding
is left as it was. -/
theorem onRecvIBCTransferPacket_claims {packet : Packet} {transferAck : Acknowledgement}
    (hack : transferAck.success = true) (hdata : packet.data = some data)
    (hhc : s.getHostChainFromHostDenom data.denom = some hc)
    (hfrom : data.sender = hc.delegationAccount.address)
    (hto : data.receiver = env.undelegationModuleAddress) (hmemo : data.memo = "")
    (h : onRecvIBCTransferPacket env packet transferAck s = .ok s') (k : String × Int) :
    s'.unbondings.get? k = (s.unbondings.get? k).map fun u =>
      if u.chainId = hc.chainId ∧ u.state = .unbondingMatured then
        { u with ibcSequenceId := "", state := .unbondingClaimable } else u := by
  simp only [onRecvIBCTransferPacket, hack, hdata, hhc, Bool.not_true, Bool.false_eq_true,
    if_false, required_some, pure_bind] at h
  obtain ⟨s₂, h₁₂, h₃⟩ := bind_eq_ok.mp h
  obtain ⟨s₁, h₁, h₂⟩ := bind_eq_ok.mp h₁₂
  have hkeep : s'.unbondings = s₁.unbondings := congrArg Prod.fst
    ((recvAutocompoundTransfer_undelegationRecords env h₃).trans
      (recvValidatorUnbondingTransfer_undelegationRecords env h₂))
  rw [hkeep]
  exact recvUndelegationTransfer_get? env hfrom hto hmemo h₁ k

/-- A matured unbonding of chain `C` for epoch 8. -/
def maturedUnbonding : Unbonding :=
  ⟨"C", 8, ⟨"uatom", 0⟩, ⟨"uatom", 50⟩, "channel-0-sequence-3", .unbondingMatured⟩

def claimState : State := (State.genesis (Table.empty.set chainC) 5).setUnbonding maturedUnbonding

/-- Chain `C`'s undelegated tokens, from its delegation account to the undelegation module. -/
def undelegationPacket : Packet :=
  ⟨1, "channel-0", some ⟨"uatom", "50", "cosmos1del", "undelegation", ""⟩⟩

theorem onRecvIBCTransferPacket_claims_undelegationPacket :
    ∃ s', onRecvIBCTransferPacket exampleEnv undelegationPacket (.result []) claimState = .ok s' ∧
      s'.unbondings.get? ("C", 8) = (claimState.unbondings.get? ("C", 8)).map fun u =>
        if u.chainId = chainC.chainId ∧ u.state = .unbondingMatured then
          { u with ibcSequenceId := "", state := .unbondingClaimable } else u :=
  ⟨_, rfl, @onRecvIBCTransferPacket_claims exampleEnv claimState _ chainC _ undelegationPacket
    (.result []) rfl rfl rfl rfl rfl rfl rfl ("C", 8)⟩

end Claim

/-! ## Every run of the keeper -/

theorem afterEpochEnd_unbondingsChange {epochIdentifier : String} {epochNumber : Int}
    {s s' : State} (h : afterEpochEnd env epochIdentifier epochNumber s = .ok s') :
    UnbondingsChange s s' :=
  afterEpochEnd_rel env UnbondingsChange UnbondingsChange.refl (fun h₁ h₂ => h₁.trans h₂)
    (fun _ _ _ h => .of_records (depositWorkflow_undelegationRecords env h))
    (fun _ _ _ h => .of_records (lsmWorkflow_undelegationRecords env h))
    (fun _ _ _ h => .of_eq (validatorUndelegationChains_unbondings env _ h))
    (fun _ _ _ h => undelegationWorkflow_unbondingsChange env h)
    (fun _ s => .of_records (rewardsWorkflow_undelegationRecords env _ s))
    (fun _ s => .of_eq (rebalanceWorkflow_unbondings env _ s)) h

/-- Every action moves each unbonding only by the keeper's writes. -/
theorem step_unbondingsChange (s : State) : ∀ a, UnbondingsChange s (step env s a)
  | .beforeEpochStart i n => .of_records (beforeEpochStart_undelegationRecords env i n s)
  | .afterEpochEnd _ _ => .commit fun _ h => afterEpochEnd_unbondingsChange env h
  | .epochTick i n => by
    have hafter : UnbondingsChange s (commit s (afterEpochEnd env i n s)) :=
      .commit fun _ h => afterEpochEnd_unbondingsChange env h
    refine hafter.trans (.of_records ?_)
    simp only [step, epochTick, beforeEpochStart_undelegationRecords]
    split_ifs <;> rfl
  | .recvPacket _ _ => .commit fun _ h => onRecvIBCTransferPacket_unbondingsChange env h
  | .acknowledgePacket _ _ _ => .commit fun _ h => by
    obtain ⟨s₁, h₁, rfl⟩ := map_eq_ok.mp h
    have hkeep := onAcknowledgementIBCTransferPacket_undelegationRecords env h₁
    exact .of_records hkeep
  | .timeoutPacket _ _ => .commit fun _ h => by
    obtain ⟨s₁, h₁, rfl⟩ := map_eq_ok.mp h
    have hkeep := onTimeoutIBCTransferPacket_undelegationRecords env h₁
    exact .of_records hkeep

theorem systemRun_unbondingsChange {s₀ s : State}
    (hrun : Relation.ReflTransGen (SystemStep env) s₀ s) : UnbondingsChange s₀ s := by
  induction hrun with
  | refl => exact .refl s₀
  | tail _ hstep ih =>
    obtain ⟨a, rfl⟩ := hstep
    exact ih.trans (step_unbondingsChange env _ a)

/-- Over every run of the keeper, from any state, no unbonding is created or removed, and each
one keeps its amounts, never moves back to pending, maturing or matured, and is claimable only
as it was or as the claim of its matured self. -/
theorem systemRun_unbondings {s₀ s : State} (hrun : Relation.ReflTransGen (SystemStep env) s₀ s)
    (k : String × Int) :
    (s₀.unbondings.get? k = none → s.unbondings.get? k = none) ∧
    ∀ u₀, s₀.unbondings.get? k = some u₀ →
      ∃ u, s.unbondings.get? k = some u ∧ UnbondingFrom u₀ u := by
  have hk := systemRun_unbondingsChange env hrun k
  exact ⟨fun h₀ => none_of_reaches (by rwa [h₀] at hk),
    fun u₀ h₀ => unbondingFrom_of_reaches (by rwa [h₀] at hk)⟩

theorem systemRun_unbondings_afterEpochEnd :
    (twoBucketState.unbondings.get? ("A", 10) = none →
      (step (forceUnbondEnv failFirst) twoBucketState (.afterEpochEnd "day" 10)).unbondings.get?
        ("A", 10) = none) ∧
    ∀ u₀, twoBucketState.unbondings.get? ("A", 10) = some u₀ →
      ∃ u, (step (forceUnbondEnv failFirst) twoBucketState (.afterEpochEnd "day" 10)).unbondings.get?
        ("A", 10) = some u ∧ UnbondingFrom u₀ u :=
  systemRun_unbondings (forceUnbondEnv failFirst) (.single ⟨_, rfl⟩) ("A", 10)

end PstakeNative.LiquidStakeIBC
