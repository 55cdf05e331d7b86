import PstakeNative.LiquidStakeIBC.System

/-! # Autocompounded rewards

The rewards a host chain withdraws come back as a transfer from its rewards account. The keeper
sends the protocol fee, the restake fee rate times the amount truncated to whole tokens, to the
fee address, and adds the rest of the amount to the current deposit, to be staked with the next
batch.
-/

namespace PstakeNative.LiquidStakeIBC

/-- The spec's fee on an autocompounded amount `A` at the rate `r`: `floor(A × r)`. -/
def specAutocompoundFee (A : Int) (r : LegacyDec) : Int := ⌊(A : ℚ) * r.toRat⌋

/-- For `A ≥ 0` and a rate in `[0, 1]`, the keeper's truncation of `r × A` is the spec's fee,
and it lies in `[0, A]`. -/
theorem tdiv_eq_specAutocompoundFee {A : Int} {r : LegacyDec} (hA : 0 ≤ A)
    (hr : 0 ≤ r.i ∧ r.i ≤ precisionMultiplier) :
    (r.i * A).tdiv precisionMultiplier = specAutocompoundFee A r ∧
      0 ≤ specAutocompoundFee A r ∧ specAutocompoundFee A r ≤ A := by
  have hprod : 0 ≤ r.i * A := mul_nonneg hr.1 hA
  have hpos : (0 : Int) < precisionMultiplier := by unfold precisionMultiplier; positivity
  have hfloor : specAutocompoundFee A r = r.i * A / precisionMultiplier := by
    rw [specAutocompoundFee, ← Rat.floor_intCast_div_natCast, LegacyDec.toRat]
    push_cast
    ring_nf
  refine ⟨by rw [Int.tdiv_eq_ediv hprod hpos.le, hfloor], hfloor ▸ Int.ediv_nonneg hprod hpos.le,
    ?_⟩
  calc specAutocompoundFee A r = r.i * A / precisionMultiplier := hfloor
    _ ≤ precisionMultiplier * A / precisionMultiplier :=
      Int.ediv_le_ediv hpos (mul_le_mul_of_nonneg_right hr.2 hA)
    _ = A := Int.mul_ediv_cancel_left A hpos.ne'

variable (env : Env)

/-- An autocompounding transfer of `A ≥ 0` at a restake fee rate in `[0, 1]`: when the branch
succeeds, it has sent a fee coin of exactly `floor(A × r)` in the chain's IBC denom (no coin when
the fee is zero), and added exactly the rest, `A - floor(A × r)`, to the current deposit; both
parts lie in `[0, A]`. -/
theorem recvAutocompoundTransfer_fee_split {hc : HostChain} {data : FungibleTokenPacketData}
    {s s' : State} {account : ICAAccount} {A : Int}
    (hacc : hc.rewardsAccount = some account)
    (hcond : data.sender = account.address ∧ data.receiver = env.depositModuleAddress ∧
      data.memo = "")
    (hA : env.intFromString.parse data.amount = some A) (hA0 : 0 ≤ A)
    (hr : 0 ≤ hc.params.restakeFee.i ∧ hc.params.restakeFee.i ≤ precisionMultiplier)
    (h : recvAutocompoundTransfer env hc data s = .ok s') :
    let fee := specAutocompoundFee A hc.params.restakeFee
    ∃ d,
      s'.protocolFees = s.protocolFees ++ [if fee = 0 then [] else [⟨env.ibcDenom hc, fee⟩]] ∧
      s.getDepositForChainAndEpoch hc.chainId s.delegationEpochNumber = some d ∧
      s'.getDepositForChainAndEpoch hc.chainId s.delegationEpochNumber =
        some { d with amount := { d.amount with amount := d.amount.amount + (A - fee) } } ∧
      0 ≤ fee ∧ fee ≤ A := by
  intro fee
  rcases recvAutocompoundTransfer_eq_ok env h with ⟨hskip, -⟩ | ⟨_, A', t, d, e, -, -, hA', rfl, hd, rfl⟩
  · exact absurd hcond (hskip account hacc)
  cases hA.symm.trans hA'
  obtain ⟨hfee, hbounds⟩ := tdiv_eq_specAutocompoundFee hA0 hr
  have hkey : d.key = (hc.chainId, s.delegationEpochNumber) := ((Table.get?_eq_some_iff _).mp hd).2
  refine ⟨d, by simp [hfee, fee], hd, ?_, hbounds⟩
  simp [State.getDepositForChainAndEpoch, Deposit.key, ← hkey, hfee, fee]

/-- The spec's scenario: 500 `uatom` of rewards from chain `C`'s rewards account. -/
def rewardsTransfer : FungibleTokenPacketData := ⟨"uatom", "500", "cosmos1rew", "deposit", ""⟩

set_option exponentiation.threshold 320 in
theorem recvAutocompoundTransfer_fee_split_example :
    ∃ s', recvAutocompoundTransfer exampleEnv chainC rewardsTransfer (exampleState 0) = .ok s' ∧
      let fee := specAutocompoundFee 500 chainC.params.restakeFee
      ∃ d, s'.protocolFees = [if fee = 0 then [] else [⟨"ibc/ATOM", fee⟩]] ∧
        (exampleState 0).getDepositForChainAndEpoch "C" 5 = some d ∧
        s'.getDepositForChainAndEpoch "C" 5 =
          some { d with amount := { d.amount with amount := d.amount.amount + (500 - fee) } } ∧
        0 ≤ fee ∧ fee ≤ 500 :=
  ⟨_, rfl, @recvAutocompoundTransfer_fee_split exampleEnv chainC rewardsTransfer (exampleState 0)
    _ _ 500 rfl ⟨rfl, rfl, rfl⟩ rfl (by decide) ⟨by decide, by decide⟩ rfl⟩

/-- At 2%, the fee on 500 is 10 and the deposit gets 490. -/
example : specAutocompoundFee 500 chainC.params.restakeFee = 10 := by
  norm_num [specAutocompoundFee, LegacyDec.toRat, precisionMultiplier, chainC]

end PstakeNative.LiquidStakeIBC
