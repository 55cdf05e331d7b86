import Mathlib

/-! # Decimal rendering of numbers

Go renders numbers in base ten (`fmt`'s `%v`, `math.Int.String`) and reads them back with
`strconv.ParseUint` and `math.NewIntFromString`. Lean's `Nat.toDigits 10` is the same rendering:
every character it produces is an ASCII digit, and reading the digits back, most significant
first, gives the number.
-/

namespace PstakeNative

/-- One step of reading a decimal string: shift in the digit `c`. -/
def shiftDigit (n : Nat) (c : Char) : Nat := n * 10 + (c.toNat - 48)

/-- The value of a list of decimal digits, most significant first. -/
def decimalValue (ds : List Char) : Nat := ds.foldl shiftDigit 0

/-- Reading more digits never lowers the value. -/
theorem le_foldl_shiftDigit (n : Nat) (ds : List Char) : n ≤ ds.foldl shiftDigit n := by
  induction ds generalizing n with
  | nil => exact Nat.le_refl n
  | cons c cs ih => exact Nat.le_trans (by simp only [shiftDigit]; omega) (ih (shiftDigit n c))

theorem decimalValue_append_singleton (ds : List Char) (c : Char) :
    decimalValue (ds ++ [c]) = shiftDigit (decimalValue ds) c := by
  simp [decimalValue]

theorem digitChar_isDigit : ∀ k < 10, (Nat.digitChar k).isDigit = true := by decide

theorem digitChar_toNat : ∀ k < 10, (Nat.digitChar k).toNat = k + 48 := by decide

/-- With enough fuel, `toDigitsCore` puts the digits of `n` in front of its accumulator. -/
theorem toDigitsCore_spec (fuel n : Nat) (ds : List Char) (hfuel : n < fuel) :
    ∃ D, Nat.toDigitsCore 10 fuel n ds = D ++ ds ∧ D ≠ [] ∧ (∀ c ∈ D, c.isDigit) ∧
      decimalValue D = n := by
  induction fuel generalizing n ds with
  | zero => omega
  | succ fuel ih =>
    have hd : n % 10 < 10 := Nat.mod_lt _ (by omega)
    have hdigit := digitChar_isDigit _ hd
    simp only [Nat.toDigitsCore]
    split
    next hq =>
      refine ⟨[Nat.digitChar (n % 10)], rfl, by simp, by simpa using hdigit, ?_⟩
      simp only [decimalValue, List.foldl, shiftDigit, digitChar_toNat _ hd]
      omega
    next hq =>
      obtain ⟨D, hD, -, hdig, hval⟩ := ih (n / 10) (Nat.digitChar (n % 10) :: ds) (by omega)
      refine ⟨D ++ [Nat.digitChar (n % 10)], by simpa using hD, by simp, ?_, ?_⟩
      · intro c hc
        rcases List.mem_append.mp hc with hc | hc
        · exact hdig c hc
        · rw [List.mem_singleton.mp hc]; exact hdigit
      · rw [decimalValue_append_singleton, hval, shiftDigit, digitChar_toNat _ hd]
        omega

/-- The decimal rendering of `n`: non-empty, all digits, and reading it back gives `n`. -/
theorem toDigits_spec (n : Nat) :
    Nat.toDigits 10 n ≠ [] ∧ (∀ c ∈ Nat.toDigits 10 n, c.isDigit) ∧
      decimalValue (Nat.toDigits 10 n) = n := by
  obtain ⟨D, hD, hne, hdig, hval⟩ := toDigitsCore_spec (n + 1) n [] (by omega)
  simp only [Nat.toDigits, hD, List.append_nil]
  exact ⟨hne, hdig, hval⟩

theorem toDigits_injective {m n : Nat} (h : Nat.toDigits 10 m = Nat.toDigits 10 n) : m = n := by
  rw [← (toDigits_spec m).2.2, ← (toDigits_spec n).2.2, h]

/-- A run of digits closed by a non-digit is determined by the list it starts. -/
theorem digitRun_unique {xs xs' ys ys' : List Char} {a a' : Char}
    (hxs : ∀ c ∈ xs, c.isDigit) (hxs' : ∀ c ∈ xs', c.isDigit)
    (ha : a.isDigit = false) (ha' : a'.isDigit = false)
    (h : xs ++ a :: ys = xs' ++ a' :: ys') : xs = xs' ∧ ys = ys' := by
  induction xs generalizing xs' with
  | nil =>
    cases xs' with
    | nil => simp only [List.nil_append, List.cons.injEq] at h; exact ⟨rfl, h.2⟩
    | cons c xs' =>
      simp only [List.nil_append, List.cons_append, List.cons.injEq] at h
      have := hxs' c (List.mem_cons_self _ _)
      rw [← h.1, ha] at this
      contradiction
  | cons c xs ih =>
    cases xs' with
    | nil =>
      simp only [List.nil_append, List.cons_append, List.cons.injEq] at h
      have := hxs c (List.mem_cons_self _ _)
      rw [h.1, ha'] at this
      contradiction
    | cons c' xs' =>
      simp only [List.cons_append, List.cons.injEq] at h
      obtain ⟨hx, hy⟩ := ih (fun c hc => hxs c (List.mem_cons_of_mem _ hc))
        (fun c hc => hxs' c (List.mem_cons_of_mem _ hc)) h.2
      exact ⟨by rw [h.1, hx], hy⟩

end PstakeNative
