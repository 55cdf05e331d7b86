import PstakeNative.LiquidStakeIBC.Types
import PstakeNative.Ratesync.PortID
import PstakeNative.Support.Except

/-! # Rate-sync host chains and their validation

A rate-sync host chain names the connection and the interchain account the rate is synced
through, and two feature slots, one per kind of liquid-staking contract. `ValidateBasic` checks
the account against its channel state and each slot against its instantiation state. Both
states are protobuf enums, so a decoded chain can carry any `int32` in them; the checks are Go
`switch`es with no `default` branch.
-/

namespace PstakeNative.Ratesync

open LiquidStakeIBC (ICAAccount)

/-! ## Enums and constants

The members' values are those of the generated protobuf enums; the test chain
`ValidHostChainInMsg` uses the same values. -/

/-- `FeatureType_LIQUID_STAKE_IBC`. -/
def featureTypeLiquidStakeIBC : BitVec 32 := 0

/-- `FeatureType_LIQUID_STAKE`. -/
def featureTypeLiquidStake : BitVec 32 := 1

/-- `InstantiationState_INSTANTIATION_NOT_INITIATED`. -/
def instantiationNotInitiated : BitVec 32 := 0

/-- `InstantiationState_INSTANTIATION_INITIATED`. -/
def instantiationInitiated : BitVec 32 := 1

/-- `InstantiationState_INSTANTIATION_COMPLETED`. -/
def instantiationCompleted : BitVec 32 := 2

/-- The enum's `String()`: a member's name, or the number of a value that names no member. -/
def featureTypeName (t : BitVec 32) : String :=
  if t = featureTypeLiquidStakeIBC then "LIQUID_STAKE_IBC"
  else if t = featureTypeLiquidStake then "LIQUID_STAKE"
  else toString t.toInt

def liquidStakeAllowAllDenoms : String := "*"

/-- ibc-go's `ibcexported.LocalhostConnectionID`. -/
def localhostConnectionID : String := "connection-localhost"

/-! ## Records -/

/-- One feature slot: a liquid-staking contract and whether it is switched on. -/
structure LiquidStake where
  featureType : BitVec 32
  codeID : UInt64
  instantiation : BitVec 32
  contractAddress : String
  denoms : List String
  enabled : Bool
  deriving DecidableEq, Repr

structure Feature where
  liquidStakeIBC : LiquidStake
  liquidStake : LiquidStake
  deriving DecidableEq, Repr

/-- The fields of a rate-sync `HostChain` that its validation reads. -/
structure HostChain where
  connectionId : String
  icaAccount : ICAAccount
  features : Feature
  deriving DecidableEq, Repr

/-- The SDK and ibc-go checks `ValidateBasic` calls; each gives the error it returns. -/
structure Checks where
  connectionIdentifierValidator : String → Option String
  portIdentifierValidator : String → Option String
  /-- The error of `bech32.DecodeAndConvert`. -/
  decodeAndConvert : String → Option String
  /-- `liquidstakeibctypes.IsLiquidStakingDenom`. -/
  isLiquidStakingDenom : String → Bool

/-- Return the error a check gave, if it gave one. -/
def orFail (err : Option String) : Except String Unit :=
  match err with
  | some e => throw e
  | none => pure ()

@[simp]
theorem orFail_eq_ok {err : Option String} {u : Unit} : orFail err = .ok u ↔ err = none := by
  cases err <;> simp [orFail]

/-! ## Validation -/

variable (c : Checks)

def validateLiquidStakeDenoms (denoms : List String) : Except String Unit :=
  if denoms = [liquidStakeAllowAllDenoms] then pure ()
  else denoms.forM fun denom =>
    unless c.isLiquidStakingDenom denom do
      throw ("invalid denom, expected a liquidstaking denom got " ++ denom)

/-- The code id, then the `switch` on the instantiation state: a value that names no member
matches no case and is not checked. -/
def LiquidStake.validateInstantiation (lsConfig : LiquidStake) : Except String Unit := do
  if lsConfig.codeID = 0 then
    if lsConfig.instantiation ≠ instantiationNotInitiated then
      throw "config with 0 code id should not have been initiated"
  if lsConfig.instantiation = instantiationNotInitiated then
    if lsConfig.contractAddress ≠ "" then
      throw "InstantiationState_INSTANTIATION_NOT_INITIATED cannot have contract address"
    if lsConfig.enabled then
      throw "feature cannot be turned on without instantiation complete"
  else if lsConfig.instantiation = instantiationInitiated then
    if lsConfig.contractAddress ≠ "" then
      throw "InstantiationState_INSTANTIATION_INITIATED cannot have contract address"
    if lsConfig.codeID = 0 then
      throw "InstantiationState_INSTANTIATION_INITIATED cannot have 0 codeID"
    if lsConfig.enabled then
      throw "feature cannot be turned on without instantiation complete"
  else if lsConfig.instantiation = instantiationCompleted then
    if lsConfig.contractAddress = "" then
      throw "InstantiationState_INSTANTIATION_COMPLETED cannot have empty contract address"
    orFail (c.decodeAndConvert lsConfig.contractAddress)
    if lsConfig.codeID = 0 then
      throw "InstantiationState_INSTANTIATION_COMPLETED cannot have 0 codeID"

/-- `LiquidStake.ValdidateBasic`, its blocks in the source's order. -/
def LiquidStake.valdidateBasic (lsConfig : LiquidStake) : Except String Unit := do
  lsConfig.validateInstantiation c
  validateLiquidStakeDenoms c lsConfig.denoms

def Feature.valdidateBasic (f : Feature) : Except String Unit := do
  if f.liquidStakeIBC.featureType ≠ featureTypeLiquidStakeIBC then
    throw ("invalid feature type expected LIQUID_STAKE_IBC, got " ++
      featureTypeName f.liquidStakeIBC.featureType)
  f.liquidStakeIBC.valdidateBasic c
  if f.liquidStake.featureType ≠ featureTypeLiquidStake then
    throw ("invalid feature type expected LIQUID_STAKE, got " ++
      featureTypeName f.liquidStake.featureType)
  f.liquidStake.valdidateBasic c

/-- The connection id is valid, or is the localhost connection. -/
def HostChain.validateConnectionId (hc : HostChain) : Except String Unit :=
  if ¬ (c.connectionIdentifierValidator hc.connectionId = none ∨
      hc.connectionId = localhostConnectionID) then
    throw "hostchain connectionID invalid: invalid request"
  else pure ()

/-- An account owner, when there is one, gives a valid controller port id. -/
def HostChain.validateOwner (hc : HostChain) : Except String Unit :=
  if hc.icaAccount.owner ≠ "" then do
    let portID ← newControllerPortID hc.icaAccount.owner
    orFail (c.portIdentifierValidator portID)
  else pure ()

/-- The `switch` on the account's channel state: a value that names no member matches no case
and is not checked. -/
def HostChain.validateIcaAccount (hc : HostChain) : Except String Unit :=
  if hc.icaAccount.channelState = ICAAccount.icaChannelCreating then do
    if hc.icaAccount.address ≠ "" then
      throw "ica account address for ICAAccount_ICA_CHANNEL_CREATING should be empty"
    if hc.features.liquidStake.enabled ∨ hc.features.liquidStakeIBC.enabled then
      throw "no features should be enabled without a valid ICA account"
  else if hc.icaAccount.channelState = ICAAccount.icaChannelCreated then do
    if hc.icaAccount.address = "" then
      throw "ica account address for ICAAccount_ICA_CHANNEL_CREATED should not be empty"
    orFail (c.decodeAndConvert hc.icaAccount.address)
  else pure ()

/-- `HostChain.ValidateBasic`, its blocks in the source's order. -/
def HostChain.validateBasic (hc : HostChain) : Except String Unit := do
  hc.validateConnectionId c
  hc.validateOwner c
  hc.validateIcaAccount c
  hc.features.valdidateBasic c

def HostChain.isActive (hc : HostChain) : Bool :=
  hc.features.liquidStakeIBC.enabled || hc.features.liquidStake.enabled

/-! ## What a validated chain satisfies -/

/-- A feature slot that is switched on and ready: its contract is instantiated, with a code id
and a decodable address. -/
def LiquidStake.Ready (lsConfig : LiquidStake) : Prop :=
  lsConfig.instantiation = instantiationCompleted ∧ lsConfig.codeID ≠ 0 ∧
    lsConfig.contractAddress ≠ "" ∧ c.decodeAndConvert lsConfig.contractAddress = none

/-- The slot's denoms are all denoms, or liquid-staking denoms. -/
def LiquidStake.DenomsValid (lsConfig : LiquidStake) : Prop :=
  lsConfig.denoms = [liquidStakeAllowAllDenoms] ∨ ∀ d ∈ lsConfig.denoms, c.isLiquidStakingDenom d

/-- The instantiation state names a member of its enum. -/
def LiquidStake.NamedInstantiation (lsConfig : LiquidStake) : Prop :=
  lsConfig.instantiation = instantiationNotInitiated ∨
    lsConfig.instantiation = instantiationInitiated ∨
    lsConfig.instantiation = instantiationCompleted

theorem validateLiquidStakeDenoms_ok {denoms : List String}
    (h : validateLiquidStakeDenoms c denoms = .ok ()) :
    denoms = [liquidStakeAllowAllDenoms] ∨ ∀ d ∈ denoms, c.isLiquidStakingDenom d := by
  unfold validateLiquidStakeDenoms at h
  split at h
  · exact .inl ‹_›
  · exact .inr (forM_unless_eq_ok.mp h)

theorem LiquidStake.denomsValid_of_valdidateBasic {lsConfig : LiquidStake}
    (h : lsConfig.valdidateBasic c = .ok ()) : lsConfig.DenomsValid c :=
  have ⟨_, _, h⟩ := bind_eq_ok.mp h
  validateLiquidStakeDenoms_ok c h

/-- On a named instantiation state, a validated slot that is switched on is ready. -/
theorem LiquidStake.ready_of_valdidateBasic {lsConfig : LiquidStake}
    (h : lsConfig.valdidateBasic c = .ok ()) (hnamed : lsConfig.NamedInstantiation)
    (he : lsConfig.enabled) : lsConfig.Ready c := by
  obtain ⟨_, h, -⟩ := bind_eq_ok.mp h
  rcases hnamed with hi | hi | hi <;>
    simp [LiquidStake.validateInstantiation, he, hi, instantiationNotInitiated, instantiationInitiated,
      instantiationCompleted] at h
  exact ⟨hi, h.1, h.2.1, h.2.2.1⟩

theorem Feature.valdidateBasic_ok {f : Feature} (h : f.valdidateBasic c = .ok ()) :
    f.liquidStakeIBC.featureType = featureTypeLiquidStakeIBC ∧
      f.liquidStakeIBC.valdidateBasic c = .ok () ∧
      f.liquidStake.featureType = featureTypeLiquidStake ∧
      f.liquidStake.valdidateBasic c = .ok () := by
  simpa [Feature.valdidateBasic] using h

/-- A validated chain's account matches its channel state, when that names a member. -/
theorem HostChain.validateBasic_ok {hc : HostChain} (h : hc.validateBasic c = .ok ()) :
    hc.features.valdidateBasic c = .ok () ∧
    (hc.icaAccount.channelState = ICAAccount.icaChannelCreating → hc.icaAccount.address = "" ∧
      hc.features.liquidStake.enabled = false ∧ hc.features.liquidStakeIBC.enabled = false) ∧
    (hc.icaAccount.channelState = ICAAccount.icaChannelCreated →
      hc.icaAccount.address ≠ "" ∧ c.decodeAndConvert hc.icaAccount.address = none) := by
  obtain ⟨_, -, h⟩ := bind_eq_ok.mp h
  obtain ⟨_, -, h⟩ := bind_eq_ok.mp h
  obtain ⟨_, hch, hf⟩ := bind_eq_ok.mp h
  refine ⟨hf, fun hcs => ?_, fun hcd => ?_⟩
  · simpa [HostChain.validateIcaAccount, hcs] using hch
  · simpa [HostChain.validateIcaAccount, hcd, ICAAccount.icaChannelCreating,
      ICAAccount.icaChannelCreated] using hch

/-- What `ValidateBasic` is there to ensure of a host chain. -/
structure HostChain.WellFormed (hc : HostChain) : Prop where
  active_account : hc.isActive → hc.icaAccount.channelState = ICAAccount.icaChannelCreated ∧
    hc.icaAccount.address ≠ "" ∧ c.decodeAndConvert hc.icaAccount.address = none
  liquidStakeIBC_ready : hc.features.liquidStakeIBC.enabled → hc.features.liquidStakeIBC.Ready c
  liquidStake_ready : hc.features.liquidStake.enabled → hc.features.liquidStake.Ready c
  liquidStakeIBC_type : hc.features.liquidStakeIBC.featureType = featureTypeLiquidStakeIBC
  liquidStake_type : hc.features.liquidStake.featureType = featureTypeLiquidStake
  liquidStakeIBC_denoms : hc.features.liquidStakeIBC.DenomsValid c
  liquidStake_denoms : hc.features.liquidStake.DenomsValid c

/-- On channel and instantiation states that name members of their enums, a chain that passes
`ValidateBasic` is well formed. -/
theorem validateBasic_sound {hc : HostChain} (h : hc.validateBasic c = .ok ())
    (hchannel : hc.icaAccount.channelState = ICAAccount.icaChannelCreating ∨
      hc.icaAccount.channelState = ICAAccount.icaChannelCreated)
    (hibc : hc.features.liquidStakeIBC.NamedInstantiation)
    (hls : hc.features.liquidStake.NamedInstantiation) : hc.WellFormed c := by
  obtain ⟨hf, hcreating, hcreated⟩ := HostChain.validateBasic_ok c h
  obtain ⟨hibcType, hibcOk, hlsType, hlsOk⟩ := Feature.valdidateBasic_ok c hf
  refine ⟨fun hact => ?_, LiquidStake.ready_of_valdidateBasic c hibcOk hibc,
    LiquidStake.ready_of_valdidateBasic c hlsOk hls, hibcType, hlsType,
    LiquidStake.denomsValid_of_valdidateBasic c hibcOk,
    LiquidStake.denomsValid_of_valdidateBasic c hlsOk⟩
  rcases hchannel with hcs | hcd
  · obtain ⟨-, hoff, hoff'⟩ := hcreating hcs
    simp [HostChain.isActive, hoff, hoff'] at hact
  · exact ⟨hcd, hcreated hcd⟩

/-- Checks that accept every input. -/
def acceptAllChecks : Checks := ⟨fun _ => none, fun _ => none, fun _ => none, fun _ => true⟩

/-- The repository's test chain `ValidHostChainInMsg`: no account yet, both slots off. -/
def validHostChainInMsg : HostChain where
  connectionId := localhostConnectionID
  icaAccount := ⟨"", ⟨"", 0⟩, "", 0⟩
  features := ⟨⟨0, 0, 0, "", [], false⟩, ⟨1, 0, 0, "", [], false⟩⟩

/-- An active chain: its account's channel is open, and its `LIQUID_STAKE_IBC` slot is switched
on with an instantiated contract that allows every denom. -/
def activeHostChain : HostChain where
  connectionId := "connection-0"
  icaAccount := ⟨"persistence1ica", ⟨"", 0⟩, "owner", ICAAccount.icaChannelCreated⟩
  features :=
    ⟨⟨featureTypeLiquidStakeIBC, 1, instantiationCompleted, "persistence1contract",
        [liquidStakeAllowAllDenoms], true⟩,
      ⟨featureTypeLiquidStake, 0, instantiationNotInitiated, "", [], false⟩⟩

/-- The repository's test chain and the active chain pass `ValidateBasic` and are well formed. -/
theorem validateBasic_sound_activeHostChain :
    validHostChainInMsg.validateBasic acceptAllChecks = .ok () ∧
      validHostChainInMsg.WellFormed acceptAllChecks ∧
    activeHostChain.validateBasic acceptAllChecks = .ok () ∧ activeHostChain.isActive = true ∧
      activeHostChain.WellFormed acceptAllChecks :=
  have h : validHostChainInMsg.validateBasic acceptAllChecks = .ok () := rfl
  have h' : activeHostChain.validateBasic acceptAllChecks = .ok () := rfl
  ⟨h, validateBasic_sound acceptAllChecks h (.inl rfl) (.inl rfl) (.inl rfl), h', rfl,
    validateBasic_sound acceptAllChecks h' (.inr rfl) (.inr (.inr rfl)) (.inl rfl)⟩

/-- A chain read from the store with out-of-range enums: channel state 2, and an enabled slot
in instantiation state 3 with code id 1 and no contract. -/
def outOfRangeChain : HostChain where
  connectionId := localhostConnectionID
  icaAccount := ⟨"", ⟨"", 0⟩, "", 2⟩
  features :=
    ⟨⟨featureTypeLiquidStakeIBC, 1, 3, "", [], true⟩,
      ⟨featureTypeLiquidStake, 0, instantiationNotInitiated, "", [], false⟩⟩

/-- Whatever the SDK checks answer, `ValidateBasic` accepts the out-of-range chain, which is
active without an open account. -/
theorem validateBasic_accepts_outOfRangeChain :
    outOfRangeChain.validateBasic c = .ok () ∧ ¬ outOfRangeChain.WellFormed c := by
  refine ⟨?_, fun hw => ?_⟩
  · -- the localhost connection passes whatever the validator says; no other check calls one
    unfold HostChain.validateBasic HostChain.validateConnectionId
    simp only [outOfRangeChain, or_true, not_true_eq_false, if_false]
    rfl
  · have hopen := (hw.active_account rfl).1
    revert hopen
    decide

/-! ## What a slot lets through, and comparing slots -/

def LiquidStake.allowsAllDenoms (lsConfig : LiquidStake) : Bool :=
  decide (lsConfig.denoms.length = 1 ∧ lsConfig.denoms.head? = some liquidStakeAllowAllDenoms)

def LiquidStake.allowsDenom (lsConfig : LiquidStake) (denom : String) : Bool :=
  if lsConfig.allowsAllDenoms then true else decide (denom ∈ lsConfig.denoms)

/-- `LiquidStake.Equals`, its field comparisons in the source's order. -/
def LiquidStake.equals (lsConfig l2 : LiquidStake) : Bool :=
  if lsConfig.codeID ≠ l2.codeID then false
  else if lsConfig.instantiation ≠ l2.instantiation then false
  else if lsConfig.contractAddress ≠ l2.contractAddress then false
  else if lsConfig.denoms ≠ l2.denoms then false
  else if lsConfig.featureType ≠ l2.featureType then false
  else if lsConfig.enabled ≠ l2.enabled then false
  else true

theorem LiquidStake.allowsAllDenoms_iff {lsConfig : LiquidStake} :
    lsConfig.allowsAllDenoms = true ↔ lsConfig.denoms = [liquidStakeAllowAllDenoms] := by
  unfold LiquidStake.allowsAllDenoms
  rcases lsConfig.denoms with _ | ⟨d, _ | ⟨d', ds⟩⟩ <;> simp [eq_comm]

/-- `AllowsDenom` lets through every denom under the wildcard, and the listed ones otherwise. -/
theorem LiquidStake.allowsDenom_iff {lsConfig : LiquidStake} {denom : String} :
    lsConfig.allowsDenom denom = true ↔
      lsConfig.denoms = [liquidStakeAllowAllDenoms] ∨ denom ∈ lsConfig.denoms := by
  unfold LiquidStake.allowsDenom
  split_ifs with h
  · simp [LiquidStake.allowsAllDenoms_iff.mp h]
  · rw [Bool.not_eq_true, ← Bool.not_eq_true, LiquidStake.allowsAllDenoms_iff] at h
    simp [h]

/-- `Equals` compares every field of a slot: it holds exactly of equal slots. -/
theorem LiquidStake.equals_iff {lsConfig l2 : LiquidStake} : lsConfig.equals l2 = true ↔ lsConfig = l2 := by
  cases lsConfig
  cases l2
  simp only [LiquidStake.equals, Bool.if_false_left, Bool.and_true, Bool.and_eq_true,
    Bool.not_eq_true', decide_eq_false_iff_not, ne_eq, not_not, LiquidStake.mk.injEq]
  exact ⟨fun ⟨h₁, h₂, h₃, h₄, h₅, h₆⟩ => ⟨h₅, h₁, h₂, h₃, h₄, h₆⟩,
    fun ⟨h₅, h₁, h₂, h₃, h₄, h₆⟩ => ⟨h₁, h₂, h₃, h₄, h₅, h₆⟩⟩

/-- A slot that passes `ValdidateBasic` lets through exactly its listed denoms, each a
liquid-staking denom, unless it is the wildcard slot, which lets through every denom. -/
theorem allowsDenom_of_valdidateBasic {lsConfig : LiquidStake}
    (h : lsConfig.valdidateBasic c = .ok ()) (denom : String) :
    lsConfig.allowsDenom denom = true ↔ lsConfig.denoms = [liquidStakeAllowAllDenoms] ∨
      denom ∈ lsConfig.denoms ∧ c.isLiquidStakingDenom denom = true := by
  rw [LiquidStake.allowsDenom_iff]
  rcases LiquidStake.denomsValid_of_valdidateBasic c h with hall | hls
  · simp [hall]
  · exact or_congr_right ⟨fun hd => ⟨hd, hls denom hd⟩, And.left⟩

/-- A slot off and not instantiated, for the one denom `stk/uatom`. -/
def stkAtomSlot : LiquidStake :=
  ⟨featureTypeLiquidStake, 0, instantiationNotInitiated, "", ["stk/uatom"], false⟩

theorem allowsDenom_of_valdidateBasic_stkAtomSlot :
    stkAtomSlot.valdidateBasic acceptAllChecks = .ok () ∧
      (stkAtomSlot.allowsDenom "stk/uatom" = true ↔ stkAtomSlot.denoms = [liquidStakeAllowAllDenoms] ∨
        "stk/uatom" ∈ stkAtomSlot.denoms ∧ acceptAllChecks.isLiquidStakingDenom "stk/uatom" = true) :=
  ⟨rfl, @allowsDenom_of_valdidateBasic acceptAllChecks stkAtomSlot rfl "stk/uatom"⟩

end PstakeNative.Ratesync
