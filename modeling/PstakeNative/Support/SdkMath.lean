import PstakeNative.Support.Decimal
import PstakeNative.Support.Except

/-! # Cosmos SDK amounts

`math.Int` is an arbitrary-precision integer that panics once a result needs more than 256 bits;
`math.LegacyDec` counts units of 10⁻¹⁸ and panics beyond `maxDecBitLen` bits; `sdk.Coin` and
`sdk.DecCoin` pair an amount with a denomination that must pass `sdk.ValidateDenom`. A panic is
an `Except` error here: inside a transaction, or inside an epoch hook that catches panics, it
discards every write made before it.
-/

namespace PstakeNative

/-- Why an SDK amount operation panicked. -/
inductive Panic
  | intOverflow
  | invalidDenom (denom : String)
  | negativeCoinAmount
  | coinDenomMismatch (denom denom' : String)
  | nilPointerDereference
  deriving DecidableEq, Repr

/-- `math.MaxBitLen`. -/
def maxBitLen : Nat := 256

/-- `math.Int` holds the value: its `BitLen` is at most `maxBitLen`. -/
def IntFits (a : Int) : Prop := a.natAbs < 2 ^ maxBitLen

instance : DecidablePred IntFits := fun a => inferInstanceAs (Decidable (a.natAbs < _))

/-- `math.Int.Add`. -/
def intAdd (a b : Int) : Except Panic Int :=
  if IntFits (a + b) then .ok (a + b) else .error .intOverflow

/-- `math.Int.Sub`. -/
def intSub (a b : Int) : Except Panic Int :=
  if IntFits (a - b) then .ok (a - b) else .error .intOverflow

theorem intAdd_eq_ok {a b c : Int} : intAdd a b = .ok c ↔ IntFits (a + b) ∧ c = a + b := by
  unfold intAdd
  split <;> simp_all [eq_comm]

theorem intSub_eq_ok {a b c : Int} : intSub a b = .ok c ↔ IntFits (a - b) ∧ c = a - b := by
  unfold intSub
  split <;> simp_all [eq_comm]

/-- `math.LegacyDec`: the decimal `i / 10^18`. -/
structure LegacyDec where
  i : Int
  deriving DecidableEq, Repr

/-- `10 ^ LegacyPrecision`. -/
def precisionMultiplier : Nat := 10 ^ 18

/-- `maxDecBitLen = MaxBitLen + decimalTruncateBits`. -/
def maxDecBitLen : Nat := 315

namespace LegacyDec

def zero : LegacyDec := ⟨0⟩

/-- `LegacyDec.MulInt`: exact, and panics past `maxDecBitLen` bits. -/
def mulInt (d : LegacyDec) (a : Int) : Except Panic LegacyDec :=
  if (d.i * a).natAbs < 2 ^ maxDecBitLen then .ok ⟨d.i * a⟩ else .error .intOverflow

/-- `LegacyDec.Add`. -/
def add (d e : LegacyDec) : Except Panic LegacyDec :=
  if (d.i + e.i).natAbs < 2 ^ maxDecBitLen then .ok ⟨d.i + e.i⟩ else .error .intOverflow

/-- `LegacyDec.Sub`. -/
def sub (d e : LegacyDec) : Except Panic LegacyDec :=
  if (d.i - e.i).natAbs < 2 ^ maxDecBitLen then .ok ⟨d.i - e.i⟩ else .error .intOverflow

/-- `LegacyDec.TruncateInt`: `chopPrecisionAndTruncate` divides by `10^18` rounding toward zero,
and `NewIntFromBigInt` panics past 256 bits. -/
def truncateInt (d : LegacyDec) : Except Panic Int :=
  let t := d.i.tdiv precisionMultiplier
  if IntFits t then .ok t else .error .intOverflow

theorem mulInt_eq_ok {d e : LegacyDec} {a : Int} :
    d.mulInt a = .ok e ↔ (d.i * a).natAbs < 2 ^ maxDecBitLen ∧ e = ⟨d.i * a⟩ := by
  unfold mulInt
  split <;> simp_all [eq_comm]

theorem add_eq_ok {d e f : LegacyDec} :
    d.add e = .ok f ↔ (d.i + e.i).natAbs < 2 ^ maxDecBitLen ∧ f = ⟨d.i + e.i⟩ := by
  unfold add
  split <;> simp_all [eq_comm]

theorem truncateInt_eq_ok {d : LegacyDec} {t : Int} :
    d.truncateInt = .ok t ↔ IntFits (d.i.tdiv precisionMultiplier) ∧
      t = d.i.tdiv precisionMultiplier := by
  simp only [truncateInt]
  split <;> simp_all [eq_comm]

/-- The rational number a decimal stands for. -/
def toRat (d : LegacyDec) : ℚ := d.i / precisionMultiplier

end LegacyDec

/-- `math.LegacyNewDecFromInt`. -/
def legacyNewDecFromInt (a : Int) : LegacyDec := ⟨a * precisionMultiplier⟩

/-- `sdk.Coin`. -/
structure Coin where
  denom : String
  amount : Int
  deriving DecidableEq, Repr

/-- `sdk.NewCoin`: `Coin.Validate` checks the denomination, then that the amount is not negative. -/
def newCoin (validDenom : String → Bool) (denom : String) (amount : Int) : Except Panic Coin :=
  if !validDenom denom then .error (.invalidDenom denom)
  else if amount < 0 then .error .negativeCoinAmount
  else .ok ⟨denom, amount⟩

theorem newCoin_eq_ok {validDenom : String → Bool} {denom : String} {amount : Int} {c : Coin}
    (h : newCoin validDenom denom amount = .ok c) : c = ⟨denom, amount⟩ := by
  unfold newCoin at h
  split_ifs at h
  cases h; rfl

/-- `sdk.Coin.Add`. -/
def Coin.add (c c' : Coin) : Except Panic Coin :=
  if c.denom = c'.denom then (intAdd c.amount c'.amount).map (⟨c.denom, ·⟩)
  else .error (.coinDenomMismatch c.denom c'.denom)

/-- `sdk.DecCoin`. -/
structure DecCoin where
  denom : String
  amount : LegacyDec
  deriving DecidableEq, Repr

/-- `sdk.NewDecCoinFromDec`. -/
def newDecCoinFromDec (validDenom : String → Bool) (denom : String) (amount : LegacyDec) :
    Except Panic DecCoin :=
  if !validDenom denom then .error (.invalidDenom denom)
  else if amount.i < 0 then .error .negativeCoinAmount
  else .ok ⟨denom, amount⟩

theorem newDecCoinFromDec_eq_ok {validDenom : String → Bool} {denom : String} {amount : LegacyDec}
    {c : DecCoin} (h : newDecCoinFromDec validDenom denom amount = .ok c) : c = ⟨denom, amount⟩ := by
  unfold newDecCoinFromDec at h
  split_ifs at h
  cases h; rfl

/-- `sdk.DecCoin.TruncateDecimal`: the whole part as a coin, and the change left over. -/
def DecCoin.truncateDecimal (validDenom : String → Bool) (c : DecCoin) :
    Except Panic (Coin × DecCoin) := do
  let truncated ← c.amount.truncateInt
  let change ← c.amount.sub (legacyNewDecFromInt truncated)
  let coin ← newCoin validDenom c.denom truncated
  let changeCoin ← newDecCoinFromDec validDenom c.denom change
  pure (coin, changeCoin)

/-- The coin `TruncateDecimal` returns is the truncated amount, in the same denomination. -/
theorem DecCoin.truncateDecimal_coin {validDenom : String → Bool} {c : DecCoin} {coin : Coin}
    {change : DecCoin} (h : c.truncateDecimal validDenom = .ok (coin, change)) :
    c.amount.truncateInt = .ok coin.amount ∧ coin.denom = c.denom := by
  obtain ⟨t, ht, h⟩ := bind_eq_ok.mp h
  obtain ⟨_, -, h⟩ := bind_eq_ok.mp h
  obtain ⟨coin', hcoin, h⟩ := bind_eq_ok.mp h
  obtain ⟨_, -, h⟩ := bind_eq_ok.mp h
  cases h
  unfold newCoin at hcoin
  split_ifs at hcoin
  cases hcoin
  exact ⟨ht, rfl⟩

/-- `sdk.NewCoins` of one coin: `sanitizeCoins` drops a zero coin, and `Coins.Validate` panics
unless what is left has a valid denomination and a positive amount. -/
def newCoins (validDenom : String → Bool) (c : Coin) : Except Panic (List Coin) :=
  if c.amount = 0 then .ok []
  else if !validDenom c.denom then .error (.invalidDenom c.denom)
  else if c.amount < 0 then .error .negativeCoinAmount
  else .ok [c]

theorem newCoins_eq_ok {validDenom : String → Bool} {c : Coin} {coins : List Coin}
    (h : newCoins validDenom c = .ok coins) : coins = if c.amount = 0 then [] else [c] := by
  unfold newCoins at h
  split_ifs at h <;> cases h <;> simp_all

/-! ## Reading amounts back

`math.NewIntFromString` is `big.Int.SetString(s, 0)` refused past 256 bits. The keeper relies
on one thing about it: it reads back the decimal rendering that `math.Int.String` produces. -/

/-- `math.NewIntFromString`, known through the law the keeper relies on. -/
structure IntFromString where
  parse : String → Option Int
  parse_toString : ∀ a : Int, parse (toString a) = if IntFits a then some a else none

/-- An optionally negative run of decimal digits. -/
def parseDecimalInt (s : String) : Option Int :=
  match s.data with
  | '-' :: ds => if ds ≠ [] ∧ ds.all Char.isDigit then some (-(decimalValue ds : Int)) else none
  | ds => if ds ≠ [] ∧ ds.all Char.isDigit then some (decimalValue ds) else none

theorem parseDecimalInt_toString (a : Int) : parseDecimalInt (toString a) = some a := by
  cases a with
  | ofNat m =>
    obtain ⟨hne, hdig, hval⟩ := toDigits_spec m
    obtain ⟨c, cs, hcs⟩ := List.exists_cons_of_ne_nil hne
    have hc : c ≠ '-' := by
      rintro rfl
      exact absurd (hdig '-' (by simp [hcs])) (by decide)
    change parseDecimalInt ⟨Nat.toDigits 10 m⟩ = _
    unfold parseDecimalInt
    simp only [hcs]
    split
    · next h => exact absurd (List.cons.inj h).1 hc
    · rw [← hcs]
      simpa [hne, hval] using hdig
  | negSucc m =>
    obtain ⟨hne, hdig, hval⟩ := toDigits_spec (m + 1)
    change parseDecimalInt ⟨'-' :: Nat.toDigits 10 (m + 1)⟩ = _
    simpa [parseDecimalInt, hne, hval, Int.negSucc_eq] using hdig

/-- A `NewIntFromString` that reads exactly the decimal renderings. -/
def decimalIntFromString : IntFromString where
  parse s := (parseDecimalInt s).bind fun a => if IntFits a then some a else none
  parse_toString a := by simp [parseDecimalInt_toString]

end PstakeNative
