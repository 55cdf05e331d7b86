import PstakeNative.Support.Decimal
import PstakeNative.Support.Table
import PstakeNative.Support.SdkMath
import PstakeNative.Support.Except
import PstakeNative.LiquidStakeIBC.Types
import PstakeNative.LiquidStakeIBC.Store
import PstakeNative.LiquidStakeIBC.Workflows
import PstakeNative.LiquidStakeIBC.Callbacks
import PstakeNative.LiquidStakeIBC.System
import PstakeNative.LiquidStakeIBC.Autocompound
import PstakeNative.LiquidStakeIBC.Tracking
import PstakeNative.LiquidStakeIBC.Effects
import PstakeNative.LiquidStakeIBC.Settlement
import PstakeNative.LiquidStakeIBC.Sequence
import PstakeNative.LiquidStakeIBC.Ledger
import PstakeNative.LiquidStakeIBC.EpochRun
import PstakeNative.LiquidStakeIBC.ChainIsolation
import PstakeNative.LiquidStakeIBC.ActiveChains
import PstakeNative.LiquidStakeIBC.Unbondings
import PstakeNative.LiquidStakeIBC.Reports
import PstakeNative.Ratesync.PortID
import PstakeNative.Ratesync.Keys
import PstakeNative.Ratesync.HostChain
