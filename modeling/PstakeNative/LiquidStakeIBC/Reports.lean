import PstakeNative.LiquidStakeIBC.ActiveChains
import PstakeNative.LiquidStakeIBC.Unbondings

/-! # What the workflows record and report

`LSMWorkflow` adds up, per chain, the shares of the LSM deposits it sends, and reports the total
in the chain's `lsm_workflow` event: a deposit whose transfer the handler refused, or whose
response could not be decoded, is left pending and is not counted.

`ValidatorUndelegationWorkflow` writes a `ValidatorUnbonding` only for a due validator of an active
chain on one of its unbonding epochs, for the validator's whole delegated amount, and, when every
transaction is carried out, writes one for each such validator. `RebalanceWorkflow` writes a
`RedelegateTx` only for a chain off its unbonding epochs, in the sent state. Each record is
written right after the interchain-account transaction it stands for, and no other hook or
callback writes either kind. So in every state the keeper reaches from its genesis, each such
record has its transaction among the remote calls made.
-/

namespace PstakeNative.LiquidStakeIBC

variable (env : Env)

/-! ## The LSM workflow's total -/

section LSMTotal

/-- Whether an LSM deposit is stored as sent. -/
def State.lsmDepositSent (s : State) (d : LSMDeposit) : Bool :=
  (s.lsmDeposits.get? d.key).map (·.state) = some .depositSent

variable {hc : HostChain}

/-- One LSM deposit's step either sends it, leaving it stored as sent and adding its shares to
the total, or leaves the LSM deposits and the total alone. -/
theorem lsmWorkflowStep_total {s s' : State} {t t' : LegacyDec} {d : LSMDeposit}
    (h : lsmWorkflowStep env hc (s, t) d = .ok (s', t')) :
    s'.lsmDepositSent d ∧ t'.i = t.i + d.shares.i ∨ s'.lsmDeposits = s.lsmDeposits ∧ t' = t := by
  simp only [lsmWorkflowStep, bind_eq_ok, liftPanic_eq_ok] at h
  obtain ⟨_, -, token, -, h⟩ := h
  rcases hsub : s.submitTransfer env hc.chainId (.lsmDeposit d.key)
    (depositTransfer env s hc token) with ⟨r, s₁⟩
  have hlsm : s₁.lsmDeposits = s.lsmDeposits := by
    rcases submitTransfer_cases s env hsub with ⟨-, rfl | rfl⟩ | ⟨-, rfl⟩ <;> rfl
  rw [hsub] at h
  cases r with
  | none =>
    obtain ⟨rfl, rfl⟩ := Prod.mk.inj (pure_eq_ok.mp h)
    exact .inr ⟨hlsm, rfl⟩
  | some n =>
    simp only [bind_eq_ok, liftPanic_eq_ok, LegacyDec.add_eq_ok, pure_eq_ok] at h
    obtain ⟨_, ⟨-, rfl⟩, h⟩ := h
    obtain ⟨rfl, rfl⟩ := Prod.mk.inj h
    refine .inl ⟨?_, rfl⟩
    simp [State.lsmDepositSent, State.updateLSMDepositsStateAndSequence, LSMDeposit.key]

/-- The pass over a list of LSM deposits, none of them stored as sent, adds to its total the
shares of exactly the deposits it leaves stored as sent. -/
theorem lsmWorkflowLoop_total (l : List LSMDeposit) (hl : (l.map LSMDeposit.key).Nodup)
    {s s' : State} {t t' : LegacyDec} (hunsent : ∀ d ∈ l, s.lsmDepositSent d = false)
    (h : l.foldlM (lsmWorkflowStep env hc) (s, t) = .ok (s', t')) :
    t'.i = t.i + ((l.filter s'.lsmDepositSent).map (·.shares.i)).sum := by
  induction l generalizing s t with
  | nil =>
    obtain ⟨-, rfl⟩ := Prod.mk.inj (pure_eq_ok.mp h)
    simp
  | cons d rest ih =>
    rw [List.map_cons, List.nodup_cons] at hl
    obtain ⟨⟨s₁, t₁⟩, h₁, h₂⟩ := bind_eq_ok.mp h
    -- the rest of the pass writes only the rows of its own deposits
    have hkeep : ∀ d' ∈ rest, s₁.lsmDeposits.get? d'.key = s.lsmDeposits.get? d'.key :=
      fun d' hd' => (lsmWorkflowStep_frame env h₁).2.2 _
        fun he => hl.1 (he ▸ List.mem_map_of_mem _ hd')
    have hlast : s'.lsmDeposits.get? d.key = s₁.lsmDeposits.get? d.key :=
      foldlM_rel (fun a a' : State × LegacyDec => a'.1.lsmDeposits.get? d.key =
          a.1.lsmDeposits.get? d.key) (fun _ => rfl) (fun _ _ _ h₁ h₂ => h₂.trans h₁)
        (fun _ d' _ hd' h => (lsmWorkflowStep_frame env h).2.2 _
          fun he => hl.1 (by rw [he]; exact List.mem_map_of_mem _ hd')) h₂
    have hsent : s'.lsmDepositSent d = s₁.lsmDepositSent d := by
      simp only [State.lsmDepositSent, hlast]
    have hrest := ih hl.2 (fun d' hd' => by
      simpa only [State.lsmDepositSent, hkeep d' hd'] using hunsent d' (List.mem_cons_of_mem d hd'))
      h₂
    rcases lsmWorkflowStep_total env h₁ with ⟨hsent₁, ht⟩ | ⟨hlsm, rfl⟩
    · rw [List.filter_cons_of_pos (hsent.trans hsent₁), List.map_cons, List.sum_cons, hrest, ht]
      ring
    · have hunsent₁ : s'.lsmDepositSent d = false := by
        rw [hsent, State.lsmDepositSent, hlsm]
        exact hunsent d (List.mem_cons_self d rest)
      rw [List.filter_cons_of_neg (by simp [hunsent₁]), hrest]

/-- The `lsm_workflow` event of an active chain with the LSM flag set reports the total shares of
exactly the chain's transferable LSM deposits that the pass sent: those it leaves stored as sent. -/
theorem lsmWorkflowChain_total {s s' : State} (h : lsmWorkflowChain env s hc = .ok s')
    (hact : hc.active = true) (hlsm : hc.flags.lsm = true) :
    ∃ total, s'.events.getLast? = some (.lsmWorkflow hc.chainId total) ∧
      total.i = (((s.getTransferableLSMDeposits hc.chainId).filter s'.lsmDepositSent).map
        (·.shares.i)).sum := by
  simp only [lsmWorkflowChain, hact, hlsm, Bool.not_true, Bool.or_self, Bool.false_eq_true,
    if_false, bind_eq_ok, pure_eq_ok] at h
  obtain ⟨⟨s₁, total⟩, hloop, rfl⟩ := h
  refine ⟨total, by simp, ?_⟩
  have hunsent : ∀ d ∈ s.getTransferableLSMDeposits hc.chainId, s.lsmDepositSent d = false := by
    intro d hd
    simp only [State.getTransferableLSMDeposits, List.mem_filter, decide_eq_true_eq] at hd
    simp [State.lsmDepositSent, Table.get?_key_of_mem hd.1, hd.2.2]
  exact (lsmWorkflowLoop_total env _ (s.lsmDeposits.nodup_filter _) hunsent hloop).trans
    (zero_add _)

/-- Chain `A` with two pending LSM deposits of 10 shares. -/
def twoSharesState : State :=
  (twoLSMState.setLSMDeposit (lsmShares "A")).setLSMDeposit
    { lsmShares "A" with delegatorAddress := "cosmos1other" }

set_option exponentiation.threshold 320 in
/-- With the first transfer refused, the event of chain `A` reports only the second deposit's
shares. -/
theorem lsmWorkflowChain_total_failFirst :
    ∃ s', lsmWorkflowChain failFirstTransferEnv twoSharesState (lsmChain "A") = .ok s' ∧
      ∃ total, s'.events.getLast? = some (.lsmWorkflow "A" total) ∧
        total.i = (((twoSharesState.getTransferableLSMDeposits "A").filter s'.lsmDepositSent).map
          (·.shares.i)).sum :=
  ⟨_, rfl, @lsmWorkflowChain_total failFirstTransferEnv (lsmChain "A") twoSharesState _ rfl rfl rfl⟩

set_option exponentiation.threshold 320 in
example : ∃ s', lsmWorkflowChain failFirstTransferEnv twoSharesState (lsmChain "A") = .ok s' ∧
    s'.events.getLast? = some (.lsmWorkflow "A" ⟨10 * 10 ^ 18⟩) :=
  ⟨_, rfl, rfl⟩

end LSMTotal

/-! ## The validator unbondings `ValidatorUndelegationWorkflow` writes -/

section ValidatorRecords

/-- A validator unbonding the pass of chain `hc` at `epoch` writes for one of the validators `vs`:
the validator is due, and the record is at the epoch, with the zero mature time, for the
validator's whole delegated amount in the chain's host denomination, under a sequence id the
collaborator returned. -/
def ForcedUnbonding (epoch : Int) (hc : HostChain) (vs : List Validator)
    (w : ValidatorUnbonding) : Prop :=
  ∃ v ∈ vs, forceUnbondDue env epoch v = true ∧ ∃ n sequenceId,
    env.icaOutcome n = some sequenceId ∧
      w = ⟨hc.chainId, epoch, none, v.operatorAddress, ⟨hc.hostDenom, v.delegatedAmount⟩, sequenceId⟩

/-- Every row of the record table `rows s'` is one of `rows s`, or satisfies `P`. -/
def RowsFrom {ρ : Type} (rows : State → List ρ) (P : ρ → Prop) (s s' : State) : Prop :=
  ∀ r ∈ rows s', r ∈ rows s ∨ P r

/-- Every key under which `s` holds a validator unbonding still holds one in `s'`. -/
def ValidatorUnbondingKeysKept (s s' : State) : Prop :=
  ∀ k, (s.validatorUnbondings.get? k).isSome → (s'.validatorUnbondings.get? k).isSome

variable {s s' : State}

namespace RowsFrom

variable {ρ : Type} {rows : State → List ρ} {P Q : ρ → Prop} {s₁ s₂ s₃ : State}

theorem refl (s : State) : RowsFrom rows P s s := fun _ hr => .inl hr

theorem trans (h₁ : RowsFrom rows P s₁ s₂) (h₂ : RowsFrom rows P s₂ s₃) : RowsFrom rows P s₁ s₃ :=
  fun r hr => (h₂ r hr).elim (h₁ r) .inr

theorem mono (hPQ : ∀ r, P r → Q r) (h : RowsFrom rows P s₁ s₂) : RowsFrom rows Q s₁ s₂ :=
  fun r hr => (h r hr).imp_right (hPQ r)

theorem setValidatorUnbonding {P : ValidatorUnbonding → Prop} (s : State) {w : ValidatorUnbonding}
    (hw : P w) : RowsFrom (·.validatorUnbondings.rows) P s (s.setValidatorUnbonding w) :=
  fun _ hw' => ((Table.mem_set _).mp hw').elim (fun h => .inr (h ▸ hw)) fun h => .inl h.1

theorem setRedelegationTx {P : RedelegateTx → Prop} (s : State) {t : RedelegateTx} (ht : P t) :
    RowsFrom (·.redelegationTxs.rows) P s (s.setRedelegationTx t) :=
  fun _ ht' => ((Table.mem_set _).mp ht').elim (fun h => .inr (h ▸ ht)) fun h => .inl h.1

end RowsFrom

namespace ValidatorUnbondingKeysKept

variable {s₁ s₂ s₃ : State}

theorem refl (s : State) : ValidatorUnbondingKeysKept s s := fun _ => id

theorem trans (h₁ : ValidatorUnbondingKeysKept s₁ s₂) (h₂ : ValidatorUnbondingKeysKept s₂ s₃) :
    ValidatorUnbondingKeysKept s₁ s₃ := fun k hk => h₂ k (h₁ k hk)

theorem setValidatorUnbonding (s : State) (w : ValidatorUnbonding) :
    ValidatorUnbondingKeysKept s (s.setValidatorUnbonding w) := fun k hk => by
  rw [State.setValidatorUnbonding_validatorUnbondings, Table.get?_set]
  split_ifs
  · rfl
  · exact hk

end ValidatorUnbondingKeysKept

/-- The pass over a chain's validators writes only forced unbondings of due validators; and when
every transaction is carried out it runs to the end, keeps every key, and leaves a record under
the key of each due validator. -/
theorem validatorUndelegationLoop_records {epoch : Int} (vs : List Validator) {hc : HostChain}
    {returned : Bool} (h : validatorUndelegationLoop env epoch vs hc s = .ok (returned, s')) :
    RowsFrom (·.validatorUnbondings.rows) (ForcedUnbonding env epoch hc vs) s s' ∧
    ((∀ n, (env.icaOutcome n).isSome) → returned = false ∧ ValidatorUnbondingKeysKept s s' ∧
      ∀ v ∈ vs, forceUnbondDue env epoch v = true →
        (s'.validatorUnbondings.get? (hc.chainId, v.operatorAddress, epoch)).isSome) := by
  induction vs generalizing hc s with
  | nil =>
    obtain ⟨rfl, rfl⟩ := Prod.mk.inj (pure_eq_ok.mp h)
    exact ⟨.refl s, fun _ => ⟨rfl, .refl s, by simp⟩⟩
  | cons v rest ih =>
    simp only [validatorUndelegationLoop] at h
    split_ifs at h with hnot
    · obtain ⟨hrec, hall⟩ := ih h
      refine ⟨hrec.mono fun w ⟨v', hv', hw⟩ => ⟨v', List.mem_cons_of_mem _ hv', hw⟩, fun hica => ?_⟩
      obtain ⟨hr, hkeys, hdue⟩ := hall hica
      refine ⟨hr, hkeys, fun v' hv' hdue' => ?_⟩
      rcases List.mem_cons.mp hv' with rfl | hv'
      · simp [hdue'] at hnot
      · exact hdue v' hv' hdue'
    obtain ⟨amount, hamount, h⟩ := bind_eq_ok.mp h
    obtain rfl := newCoin_eq_ok (liftPanic_eq_ok.mp hamount)
    simp only [State.generateAndExecuteICATx] at h
    rcases hica : env.icaOutcome s.calls with _ | sequenceId <;> rw [hica] at h
    · obtain ⟨rfl, rfl⟩ := Prod.mk.inj (pure_eq_ok.mp h)
      refine ⟨fun _ hw => .inl hw, fun hall => ?_⟩
      simpa [hica] using hall s.calls
    obtain ⟨_, -, h⟩ := bind_eq_ok.mp h
    obtain ⟨hrec, hall⟩ := ih h
    -- the record of `v`, written right after its transaction
    have hforced : ForcedUnbonding env epoch hc (v :: rest)
        ⟨hc.chainId, epoch, none, v.operatorAddress, ⟨hc.hostDenom, v.delegatedAmount⟩, sequenceId⟩ :=
      ⟨v, List.mem_cons_self _ _, by simpa using hnot, s.calls, sequenceId, hica, rfl⟩
    -- the rest of the pass, with the chain's reweighted validators, keeps its id and denomination
    refine ⟨(RowsFrom.setValidatorUnbonding _ hforced).trans
      (hrec.mono fun w ⟨v', hv', hw⟩ => ⟨v', List.mem_cons_of_mem _ hv', hw⟩), fun hica' => ?_⟩
    obtain ⟨hr, hkeys, hdue⟩ := hall hica'
    refine ⟨hr, (ValidatorUnbondingKeysKept.setValidatorUnbonding _ _).trans hkeys,
      fun v' hv' hdue' => ?_⟩
    rcases List.mem_cons.mp hv' with rfl | hv'
    · exact hkeys _ (by simp [ValidatorUnbonding.key])
    · exact hdue v' hv' hdue'

/-- The same over the chains of `ValidatorUndelegationWorkflow`: only active chains on one of
their unbonding epochs are written, and, when every transaction is carried out, each of them is
written to the end. -/
theorem validatorUndelegationChains_records {epoch : Int} (chains : List HostChain)
    (h : validatorUndelegationChains env epoch chains s = .ok s') :
    RowsFrom (·.validatorUnbondings.rows) (fun w => ∃ hc ∈ chains, hc.active = true ∧
      env.isUnbondingEpoch hc.unbondingFactor epoch = true ∧
        ForcedUnbonding env epoch hc hc.validators w) s s' ∧
    ((∀ n, (env.icaOutcome n).isSome) → ValidatorUnbondingKeysKept s s' ∧
      ∀ hc ∈ chains, hc.active = true → env.isUnbondingEpoch hc.unbondingFactor epoch = true →
        ∀ v ∈ hc.validators, forceUnbondDue env epoch v = true →
          (s'.validatorUnbondings.get? (hc.chainId, v.operatorAddress, epoch)).isSome) := by
  induction chains generalizing s with
  | nil =>
    cases pure_eq_ok.mp h
    exact ⟨.refl _, fun _ => ⟨.refl _, by simp⟩⟩
  | cons hc rest ih =>
    simp only [validatorUndelegationChains] at h
    by_cases hrun : hc.active = true ∧ env.isUnbondingEpoch hc.unbondingFactor epoch = true
    · simp only [hrun, Bool.not_true, Bool.false_eq_true, if_false] at h
      obtain ⟨⟨returned, s₁⟩, hloop, h⟩ := bind_eq_ok.mp h
      obtain ⟨hrec₁, hall₁⟩ := validatorUndelegationLoop_records env hc.validators hloop
      split_ifs at h with hret
      · cases pure_eq_ok.mp h
        refine ⟨hrec₁.mono fun w hw => ⟨hc, List.mem_cons_self _ _, hrun.1, hrun.2, hw⟩,
          fun hica => ?_⟩
        simp [(hall₁ hica).1] at hret
      obtain ⟨hrec, hall⟩ := ih h
      refine ⟨(hrec₁.mono fun w hw => ⟨hc, List.mem_cons_self _ _, hrun.1, hrun.2, hw⟩).trans
        (hrec.mono fun w ⟨hc', hmem, hw⟩ => ⟨hc', List.mem_cons_of_mem _ hmem, hw⟩), fun hica => ?_⟩
      obtain ⟨-, hkeys₁, hdue₁⟩ := hall₁ hica
      obtain ⟨hkeys, hdue⟩ := hall hica
      refine ⟨hkeys₁.trans hkeys, fun hc' hmem hact hep v hv hdue' => ?_⟩
      rcases List.mem_cons.mp hmem with rfl | hmem
      · exact hkeys _ (hdue₁ v hv hdue')
      · exact hdue hc' hmem hact hep v hv hdue'
    · -- the chain is skipped
      replace h : validatorUndelegationChains env epoch rest s = .ok s' := by
        split_ifs at h with hact hep <;>
          first | exact h | exact absurd ⟨by simpa using hact, by simpa using hep⟩ hrun
      obtain ⟨hrec, hall⟩ := ih h
      refine ⟨hrec.mono fun w ⟨hc', hmem, hw⟩ => ⟨hc', List.mem_cons_of_mem _ hmem, hw⟩,
        fun hica => ⟨(hall hica).1, fun hc' hmem hact hep => ?_⟩⟩
      rcases List.mem_cons.mp hmem with rfl | hmem
      · exact absurd ⟨hact, hep⟩ hrun
      · exact (hall hica).2 hc' hmem hact hep

/-- `ValidatorUndelegationWorkflow` writes a validator unbonding only for a due validator of an
active chain on one of its unbonding epochs: at the epoch, with the zero mature time, for the
validator's whole delegated amount in the chain's host denomination, under a sequence id the
collaborator returned. Every other record is one the store held before. -/
theorem validatorUndelegationWorkflow_records {epoch : Int}
    (h : validatorUndelegationWorkflow env epoch s = .ok s') :
    ∀ w ∈ s'.validatorUnbondings.rows, w ∈ s.validatorUnbondings.rows ∨
      ∃ hc ∈ s.getAllHostChains, hc.active = true ∧
        env.isUnbondingEpoch hc.unbondingFactor epoch = true ∧
          ForcedUnbonding env epoch hc hc.validators w :=
  (validatorUndelegationChains_records env _ h).1

/-- Every transaction carried out, the workflow records the forced unbondings of both chains. -/
theorem validatorUndelegationWorkflow_records_twoChains :
    ∃ s', validatorUndelegationWorkflow (forceUnbondEnv fun _ => some "ica-1") 10 twoChainState =
        .ok s' ∧
      ∀ w ∈ s'.validatorUnbondings.rows, w ∈ twoChainState.validatorUnbondings.rows ∨
        ∃ hc ∈ twoChainState.getAllHostChains, hc.active = true ∧
          (forceUnbondEnv fun _ => some "ica-1").isUnbondingEpoch hc.unbondingFactor 10 = true ∧
            ForcedUnbonding (forceUnbondEnv fun _ => some "ica-1") 10 hc hc.validators w :=
  ⟨_, rfl, validatorUndelegationWorkflow_records (forceUnbondEnv fun _ => some "ica-1") rfl⟩

/-- When every interchain-account transaction is carried out, `ValidatorUndelegationWorkflow`
leaves a validator unbonding under the key of each due validator of each active chain on one of
its unbonding epochs. -/
theorem validatorUndelegationWorkflow_complete {epoch : Int}
    (hall : ∀ n, (env.icaOutcome n).isSome)
    (h : validatorUndelegationWorkflow env epoch s = .ok s') :
    ∀ hc ∈ s.getAllHostChains, hc.active = true →
      env.isUnbondingEpoch hc.unbondingFactor epoch = true → ∀ v ∈ hc.validators,
        forceUnbondDue env epoch v = true →
          (s'.validatorUnbondings.get? (hc.chainId, v.operatorAddress, epoch)).isSome :=
  ((validatorUndelegationChains_records env _ h).2 hall).2

/-- Every transaction carried out, the workflow leaves a record for each chain's due validator. -/
theorem validatorUndelegationWorkflow_complete_twoChains :
    (∀ n, ((forceUnbondEnv fun _ => some "ica-1").icaOutcome n).isSome) ∧
    ∃ s', validatorUndelegationWorkflow (forceUnbondEnv fun _ => some "ica-1") 10 twoChainState =
        .ok s' ∧
      ∀ hc ∈ twoChainState.getAllHostChains, hc.active = true →
        (forceUnbondEnv fun _ => some "ica-1").isUnbondingEpoch hc.unbondingFactor 10 = true →
          ∀ v ∈ hc.validators, forceUnbondDue (forceUnbondEnv fun _ => some "ica-1") 10 v = true →
            (s'.validatorUnbondings.get? (hc.chainId, v.operatorAddress, 10)).isSome :=
  ⟨fun _ => rfl, _, rfl,
    validatorUndelegationWorkflow_complete (forceUnbondEnv fun _ => some "ica-1") (fun _ => rfl) rfl⟩

end ValidatorRecords

/-! ## The redelegations `RebalanceWorkflow` writes -/

/-- `RebalanceWorkflow` writes a redelegation only for a registered chain that is not on one of its
unbonding epochs, in the sent state, under a sequence id the collaborator returned for one of
the chain's generated redelegations. Every other redelegation is one the store held before. -/
theorem rebalanceWorkflow_records (epoch : Int) (s : State) :
    ∀ t ∈ (rebalanceWorkflow env epoch s).redelegationTxs.rows, t ∈ s.redelegationTxs.rows ∨
      ∃ hc ∈ s.getAllHostChains, env.isUnbondingEpoch hc.unbondingFactor epoch = false ∧
        env.generateRedelegateMsgs hc ≠ [] ∧ ∃ n sequenceId, env.icaOutcome n = some sequenceId ∧
          t = ⟨hc.chainId, sequenceId, .redelegateSent⟩ := by
  refine foldl_rel (RowsFrom (·.redelegationTxs.rows) _) RowsFrom.refl
    (fun _ _ _ => RowsFrom.trans) (fun a hc hhc => ?_) s
  unfold rebalanceWorkflowChain
  split_ifs with hep
  · exact .refl a
  refine foldl_rel (RowsFrom (·.redelegationTxs.rows) _) RowsFrom.refl
    (fun _ _ _ => RowsFrom.trans) (fun b msg hmsg => ?_) a
  unfold rebalanceWorkflowStep
  simp only [State.generateAndExecuteICATx]
  rcases hica : env.icaOutcome b.calls with _ | ibcSeq
  · exact fun _ ht => .inl ht
  · exact RowsFrom.setRedelegationTx _ ⟨hc, hhc, by simpa using hep, List.ne_nil_of_mem hmsg,
      b.calls, ibcSeq, hica, rfl⟩

/-- On chain `D`, off its unbonding epochs, the rebalance pass writes the sent redelegation of
its one transaction. -/
theorem rebalanceWorkflow_records_inactiveChain :
    (⟨"D", "ica-1", .redelegateSent⟩ : RedelegateTx) ∈
        (rebalanceWorkflow rebalanceEnv 3 inactiveChainState).redelegationTxs.rows ∧
      ((⟨"D", "ica-1", .redelegateSent⟩ : RedelegateTx) ∈ inactiveChainState.redelegationTxs.rows ∨
        ∃ hc ∈ inactiveChainState.getAllHostChains,
          rebalanceEnv.isUnbondingEpoch hc.unbondingFactor 3 = false ∧
          rebalanceEnv.generateRedelegateMsgs hc ≠ [] ∧ ∃ n sequenceId,
            rebalanceEnv.icaOutcome n = some sequenceId ∧
              (⟨"D", "ica-1", .redelegateSent⟩ : RedelegateTx) =
                ⟨hc.chainId, sequenceId, .redelegateSent⟩) :=
  ⟨by decide, rebalanceWorkflow_records rebalanceEnv 3 inactiveChainState _ (by decide)⟩

/-! ## Every validator unbonding and redelegation was submitted -/

section Submitted

/-- Every validator unbonding and every redelegation the keeper stores was submitted: among the
remote calls made is an interchain-account transaction of a chain with the record's id, from the
chain's delegation account, that undelegates the record's amount from the record's validator, or
that carries one of the redelegations the keeper generates for the chain. -/
structure RecordsSubmitted (s : State) : Prop where
  validatorUnbondings : ∀ w ∈ s.validatorUnbondings.rows, ∃ hc : HostChain,
    hc.chainId = w.chainId ∧ (⟨w.chainId, none, .icaTx hc.connectionId hc.delegationAccount.owner
      [.msgUndelegate hc.delegationAccount.address w.validatorAddress w.amount]⟩ : RemoteCall) ∈
        s.remoteCalls
  redelegationTxs : ∀ t ∈ s.redelegationTxs.rows, ∃ hc : HostChain, hc.chainId = t.chainId ∧
    ∃ msg ∈ env.generateRedelegateMsgs hc,
      (⟨t.chainId, none, .icaTx hc.connectionId hc.delegationAccount.owner [msg]⟩ : RemoteCall) ∈
        s.remoteCalls

namespace RecordsSubmitted

variable {env} {s s' : State}

theorem genesis (hostChains : Table HostChain.chainId) (epoch : Int) :
    RecordsSubmitted env (State.genesis hostChains epoch) :=
  ⟨fun _ h => absurd h (List.not_mem_nil _), fun _ h => absurd h (List.not_mem_nil _)⟩

/-- A step that keeps both records and forgets no remote call keeps the invariant. -/
theorem of_frame (h : RecordsSubmitted env s) (hrec : s'.submittedRecords = s.submittedRecords)
    (hcalls : s.remoteCalls ⊆ s'.remoteCalls) : RecordsSubmitted env s' := by
  have hvu : s'.validatorUnbondings = s.validatorUnbondings := congrArg Prod.fst hrec
  have hrd : s'.redelegationTxs = s.redelegationTxs := congrArg Prod.snd hrec
  refine ⟨fun w hw => ?_, fun t ht => ?_⟩
  · obtain ⟨hc, hid, hcall⟩ := h.validatorUnbondings w (hvu ▸ hw)
    exact ⟨hc, hid, hcalls hcall⟩
  · obtain ⟨hc, hid, msg, hmsg, hcall⟩ := h.redelegationTxs t (hrd ▸ ht)
    exact ⟨hc, hid, msg, hmsg, hcalls hcall⟩

theorem recordCall (h : RecordsSubmitted env s) (c : String) (r : Option RecordKey)
    (op : RemoteOp) : RecordsSubmitted env (s.recordCall c r op) :=
  h.of_frame rfl (List.subset_append_left _ _)

/-- A validator unbonding written after the transaction that undelegates its amount. -/
theorem setValidatorUnbonding (h : RecordsSubmitted env s) (w : ValidatorUnbonding)
    (hc : HostChain) (hid : hc.chainId = w.chainId)
    (hcall : (⟨w.chainId, none, .icaTx hc.connectionId hc.delegationAccount.owner
      [.msgUndelegate hc.delegationAccount.address w.validatorAddress w.amount]⟩ : RemoteCall) ∈
        s.remoteCalls) :
    RecordsSubmitted env (s.setValidatorUnbonding w) := by
  refine ⟨fun w' hw' => ?_, h.redelegationTxs⟩
  rcases (Table.mem_set _).mp hw' with rfl | ⟨hw', -⟩
  · exact ⟨hc, hid, hcall⟩
  · exact h.validatorUnbondings w' hw'

/-- A redelegation written after the transaction that carries it. -/
theorem setRedelegationTx (h : RecordsSubmitted env s) (t : RedelegateTx) (hc : HostChain)
    (hid : hc.chainId = t.chainId) (msg : ICAMsg) (hmsg : msg ∈ env.generateRedelegateMsgs hc)
    (hcall : (⟨t.chainId, none, .icaTx hc.connectionId hc.delegationAccount.owner [msg]⟩ :
      RemoteCall) ∈ s.remoteCalls) :
    RecordsSubmitted env (s.setRedelegationTx t) := by
  refine ⟨h.validatorUnbondings, fun t' ht' => ?_⟩
  rcases (Table.mem_set _).mp ht' with rfl | ⟨ht', -⟩
  · exact ⟨hc, hid, msg, hmsg, hcall⟩
  · exact h.redelegationTxs t' ht'

/-- A hook's writes persist only when it succeeds. -/
theorem commit (h : RecordsSubmitted env s) {x : Except KeeperError State}
    (hx : ∀ s', x = .ok s' → RecordsSubmitted env s') : RecordsSubmitted env (commit s x) := by
  cases x with
  | error => exact h
  | ok s' => exact hx s' rfl

end RecordsSubmitted

variable {s s' : State}

theorem undelegationWorkflow_submittedRecords {epoch : Int}
    (h : undelegationWorkflow env epoch s = .ok s') : s'.submittedRecords = s.submittedRecords :=
  foldlM_view State.submittedRecords (fun _ _ _ _ h => by
    rcases undelegationWorkflowChain_cases env h with
      rfl | ⟨-, u, -, rfl | ⟨msgs, -, rfl | ⟨sequenceId, e, rfl⟩⟩⟩ <;> rfl) h

theorem recvUndelegationTransfer_submittedRecords {hc : HostChain}
    {data : FungibleTokenPacketData} (h : recvUndelegationTransfer env hc data s = .ok s') :
    s'.submittedRecords = s.submittedRecords := by
  unfold recvUndelegationTransfer at h
  split_ifs at h
  · refine foldlM_view State.submittedRecords (fun a u a' _ h => ?_) h
    obtain ⟨_, -, h⟩ := bind_eq_ok.mp h
    cases pure_eq_ok.mp h
    rfl
  · cases pure_eq_ok.mp h
    rfl

/-- Each forced undelegation is recorded right after the transaction that submits it. -/
theorem validatorUndelegationLoop_submitted {epoch : Int} (vs : List Validator) {hc : HostChain}
    {returned : Bool} (hs : RecordsSubmitted env s)
    (h : validatorUndelegationLoop env epoch vs hc s = .ok (returned, s')) :
    RecordsSubmitted env s' := by
  induction vs generalizing hc s with
  | nil =>
    cases (Prod.mk.inj (pure_eq_ok.mp h)).2
    exact hs
  | cons v rest ih =>
    simp only [validatorUndelegationLoop] at h
    split_ifs at h
    · exact ih hs h
    obtain ⟨amount, -, h⟩ := bind_eq_ok.mp h
    simp only [State.generateAndExecuteICATx] at h
    have hcall := hs.recordCall hc.chainId none (.icaTx hc.connectionId
      hc.delegationAccount.owner [.msgUndelegate hc.delegationAccount.address v.operatorAddress amount])
    rcases hica : env.icaOutcome s.calls with _ | sequenceId <;> rw [hica] at h
    · cases (Prod.mk.inj (pure_eq_ok.mp h)).2
      exact hcall
    obtain ⟨_, -, h⟩ := bind_eq_ok.mp h
    refine ih ?_ h
    -- the record is written after its transaction; the registry write and the event keep both
    have hset := hcall.setValidatorUnbonding ⟨hc.chainId, epoch, none, v.operatorAddress, amount,
      sequenceId⟩ hc rfl (List.mem_append_right _ (List.mem_singleton_self _))
    exact hset.of_frame rfl (List.Subset.refl _)

theorem validatorUndelegationChains_submitted {epoch : Int} (chains : List HostChain)
    (hs : RecordsSubmitted env s) (h : validatorUndelegationChains env epoch chains s = .ok s') :
    RecordsSubmitted env s' := by
  induction chains generalizing s with
  | nil =>
    cases pure_eq_ok.mp h
    exact hs
  | cons hc rest ih =>
    simp only [validatorUndelegationChains] at h
    split_ifs at h
    · exact ih hs h
    · exact ih hs h
    obtain ⟨⟨returned, s₁⟩, hloop, h⟩ := bind_eq_ok.mp h
    have h₁ := validatorUndelegationLoop_submitted env hc.validators hs hloop
    split_ifs at h
    · cases pure_eq_ok.mp h
      exact h₁
    · exact ih h₁ h

theorem foldl_submitted {β : Type} {f : State → β → State} {l : List β}
    (hf : ∀ a b, b ∈ l → RecordsSubmitted env a → RecordsSubmitted env (f a b))
    (hs : RecordsSubmitted env s) : RecordsSubmitted env (l.foldl f s) :=
  foldl_rel (fun a a' => RecordsSubmitted env a → RecordsSubmitted env a') (fun _ => id)
    (fun _ _ _ h₁ h₂ h => h₂ (h₁ h)) hf s hs

/-- Each redelegation is recorded right after the transaction that carries it. -/
theorem rebalanceWorkflow_submitted (epoch : Int) (hs : RecordsSubmitted env s) :
    RecordsSubmitted env (rebalanceWorkflow env epoch s) := by
  refine foldl_submitted env (fun a hc _ ha => ?_) hs
  unfold rebalanceWorkflowChain
  split_ifs
  · exact ha
  refine foldl_submitted env (fun b msg hmsg hb => ?_) ha
  unfold rebalanceWorkflowStep
  simp only [State.generateAndExecuteICATx]
  have hcall := hb.recordCall hc.chainId none
    (.icaTx hc.connectionId hc.delegationAccount.owner [msg])
  rcases env.icaOutcome b.calls with _ | ibcSeq
  · exact hcall
  · exact hcall.setRedelegationTx ⟨hc.chainId, ibcSeq, .redelegateSent⟩ hc rfl msg hmsg
      (List.mem_append_right _ (List.mem_singleton_self _))

theorem afterEpochEnd_submitted {epochIdentifier : String} {epochNumber : Int}
    (h : afterEpochEnd env epochIdentifier epochNumber s = .ok s') (hs : RecordsSubmitted env s) :
    RecordsSubmitted env s' :=
  afterEpochEnd_rel env (fun s s' => RecordsSubmitted env s → RecordsSubmitted env s')
    (fun _ => id) (fun h₁ h₂ hs => h₂ (h₁ hs))
    (fun _ _ _ h hs => hs.of_frame (congrArg Prod.snd (depositWorkflow_undelegationRecords env h))
      (depositWorkflow_effect env h).transfers.isPrefix.subset)
    (fun _ _ _ h hs => hs.of_frame (congrArg Prod.snd (lsmWorkflow_undelegationRecords env h))
      (lsmWorkflow_effect env h).transfers.isPrefix.subset)
    (fun _ _ _ h hs => validatorUndelegationChains_submitted env _ hs h)
    (fun _ _ _ h hs => hs.of_frame (undelegationWorkflow_submittedRecords env h)
      (undelegationWorkflow_frame env h).2.isPrefix.subset)
    (fun _ s hs => hs.of_frame (congrArg Prod.snd (rewardsWorkflow_undelegationRecords env _ s))
      (rewardsWorkflow_frame env _ s).2.isPrefix.subset)
    (fun _ _ hs => rebalanceWorkflow_submitted env _ hs) h hs

theorem beforeEpochStart_submitted (epochIdentifier : String) (e : Int)
    (hs : RecordsSubmitted env s) : RecordsSubmitted env (beforeEpochStart env epochIdentifier e s) :=
  hs.of_frame (congrArg Prod.snd (beforeEpochStart_undelegationRecords env epochIdentifier e s))
    fun _ hc => (beforeEpochStart_remoteCalls env epochIdentifier e s).symm ▸ hc

theorem onRecvIBCTransferPacket_submitted {packet : Packet} {transferAck : Acknowledgement}
    (h : onRecvIBCTransferPacket env packet transferAck s = .ok s') (hs : RecordsSubmitted env s) :
    RecordsSubmitted env s' := by
  have hcalls := (onRecvIBCTransferPacket_effect env h).2.2.remoteCalls
  refine hs.of_frame ?_ fun _ hc => hcalls.symm ▸ hc
  rcases onRecvIBCTransferPacket_eq_ok env h with rfl | ⟨_, _, s₁, s₂, -, -, h₁, h₂, h₃⟩
  · rfl
  exact (congrArg Prod.snd ((recvAutocompoundTransfer_undelegationRecords env h₃).trans
    (recvValidatorUnbondingTransfer_undelegationRecords env h₂))).trans
      (recvUndelegationTransfer_submittedRecords env h₁)

/-- Every action keeps the invariant. -/
theorem step_submitted (hs : RecordsSubmitted env s) : ∀ a, RecordsSubmitted env (step env s a)
  | .beforeEpochStart i n => beforeEpochStart_submitted env i n hs
  | .afterEpochEnd _ _ => hs.commit fun _ h => afterEpochEnd_submitted env h hs
  | .epochTick i n => by
    have hafter : RecordsSubmitted env (commit s (afterEpochEnd env i n s)) :=
      hs.commit fun _ h => afterEpochEnd_submitted env h hs
    refine beforeEpochStart_submitted env i (n + 1) ?_
    split_ifs
    · exact hafter.of_frame rfl (List.Subset.refl _)
    · exact hafter
  | .recvPacket _ _ => hs.commit fun _ h => onRecvIBCTransferPacket_submitted env h hs
  | .acknowledgePacket _ _ _ => hs.commit fun _ h => by
    obtain ⟨s₁, h₁, rfl⟩ := map_eq_ok.mp h
    have hkeep := onAcknowledgementIBCTransferPacket_undelegationRecords env h₁
    have hcalls := (onAcknowledgementIBCTransferPacket_frame env h₁).remoteCalls
    exact hs.of_frame (congrArg Prod.snd hkeep) fun _ hc => hcalls.symm ▸ hc
  | .timeoutPacket _ _ => hs.commit fun _ h => by
    obtain ⟨s₁, h₁, rfl⟩ := map_eq_ok.mp h
    have hkeep := onTimeoutIBCTransferPacket_undelegationRecords env h₁
    have hcalls := (onTimeoutIBCTransferPacket_frame env h₁).remoteCalls
    exact hs.of_frame (congrArg Prod.snd hkeep) fun _ hc => hcalls.symm ▸ hc

theorem systemRun_submitted {s₀ : State} (hs₀ : RecordsSubmitted env s₀)
    (hrun : Relation.ReflTransGen (SystemStep env) s₀ s) : RecordsSubmitted env s := by
  induction hrun with
  | refl => exact hs₀
  | tail _ hstep ih =>
    obtain ⟨a, rfl⟩ := hstep
    exact step_submitted env ih a

/-- In every state the keeper reaches from its genesis, by any run of epoch hooks and transfer
callbacks, each validator unbonding and each redelegation it stores has its interchain-account
transaction among the remote calls made. -/
theorem genesisRun_recordsSubmitted {hostChains : Table HostChain.chainId} {epoch : Int}
    (hrun : Relation.ReflTransGen (SystemStep env) (State.genesis hostChains epoch) s) :
    RecordsSubmitted env s :=
  systemRun_submitted env (.genesis hostChains epoch) hrun

/-- With every transaction carried out, the forced undelegations of both chains' validators are
recorded, each after its transaction. -/
theorem genesisRun_recordsSubmitted_forceUnbond :
    RecordsSubmitted (forceUnbondEnv fun _ => some "ica-1")
      (step (forceUnbondEnv fun _ => some "ica-1") twoChainState (.afterEpochEnd "day" 10)) :=
  genesisRun_recordsSubmitted (forceUnbondEnv fun _ => some "ica-1") (.single ⟨_, rfl⟩)

example : (step (forceUnbondEnv fun _ => some "ica-1") twoChainState
    (.afterEpochEnd "day" 10)).validatorUnbondings.rows.map (·.validatorAddress) =
      ["val-A", "val-B"] := by
  decide

end Submitted

end PstakeNative.LiquidStakeIBC
