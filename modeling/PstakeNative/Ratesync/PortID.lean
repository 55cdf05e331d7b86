import PstakeNative.Support.Decimal

/-! # Interchain-account controller port ids

A rate-sync host chain's interchain account is owned by `pstake_ratesync_<id>`, and its
controller port id is `icacontroller-` followed by the owner. The helpers below build the port
id from a chain id and read the owner and the id back, over the Go library functions they
call: `strings.TrimSpace`, `strings.CutPrefix`, `strconv.ParseUint` and ibc-go's
`NewControllerPortID`.
-/

namespace PstakeNative.Ratesync

/-! ## Go library functions -/

/-- `unicode.IsSpace`: the Latin-1 spaces, and the `White_Space` runes above Latin-1
(U+1680, U+2000 to U+200A, U+2028, U+2029, U+202F, U+205F, U+3000). -/
def isSpace (r : Char) : Bool :=
  if r.toNat ≤ 255 then
    r = '\t' || r = '\n' || r.toNat = 11 || r.toNat = 12 || r = '\r' || r = ' ' ||
      r.toNat = 133 || r.toNat = 160
  else
    r.toNat = 5760 || (8192 ≤ r.toNat && r.toNat ≤ 8202) || r.toNat = 8232 || r.toNat = 8233 ||
      r.toNat = 8239 || r.toNat = 8287 || r.toNat = 12288

/-- `strings.TrimSpace`: leading and trailing `unicode.IsSpace` runes removed (its ASCII fast
path gives the same string). -/
def trimSpace (s : String) : String :=
  ⟨((s.data.dropWhile isSpace).reverse.dropWhile isSpace).reverse⟩

/-- A string whose first rune is not a space does not trim to the empty string. -/
theorem trimSpace_ne_empty {s : String} {c : Char} {cs : List Char} (hs : s.data = c :: cs)
    (hc : isSpace c = false) : trimSpace s ≠ "" := by
  intro h
  have hnil : ((s.data.dropWhile isSpace).reverse.dropWhile isSpace) = [] :=
    List.reverse_eq_nil_iff.mp (congrArg String.data h)
  rw [hs, List.dropWhile_cons_of_neg (by simp [hc]), List.dropWhile_eq_nil_iff] at hnil
  simp [hnil c (by simp)] at hc

/-- `strings.CutPrefix`: the string after `pre`, and whether it began with `pre`. -/
def cutPrefix (s pre : String) : String × Bool :=
  if pre.data <+: s.data then (⟨s.data.drop pre.length⟩, true) else (s, false)

theorem cutPrefix_append (pre s : String) : cutPrefix (pre ++ s) pre = (s, true) := by
  have hdrop : (pre.data ++ s.data).drop pre.length = s.data := List.drop_left' rfl
  simp [cutPrefix, hdrop]

theorem cutPrefix_eq_true {s pre rest : String} :
    cutPrefix s pre = (rest, true) ↔ s = pre ++ rest := by
  refine ⟨fun h => ?_, fun h => h ▸ cutPrefix_append pre rest⟩
  unfold cutPrefix at h
  split_ifs at h with hpre
  · obtain ⟨t, ht⟩ := hpre
    have hrest : rest.data = t := by
      rw [← (Prod.mk.inj h).1, ← ht]
      exact List.drop_left' rfl
    exact String.ext (by rw [String.data_append, hrest, ht])
  · cases h

/-- `strconv.ErrSyntax` and `strconv.ErrRange`. -/
inductive NumErr
  | errSyntax
  | errRange
  deriving DecidableEq, Repr

/-- `strconv.NumError`: the function, the input, and what was wrong with it. -/
structure NumError where
  func : String
  num : String
  err : NumErr
  deriving DecidableEq, Repr

def maxUint64 : Nat := 2 ^ 64 - 1

/-- `maxUint64/10 + 1`, the smallest value whose product by the base overflows. -/
def cutoff10 : Nat := maxUint64 / 10 + 1

/-- The digit loop of `strconv.ParseUint(s0, 10, 64)` from the value `n` read so far. Products
and sums wrap at 64 bits as Go's `uint64` does. For base 10 a letter's digit value is at least
the base, so every byte that is not a decimal digit is a syntax error; a multi-byte rune fails
at its first byte, as it fails here at the rune. -/
def parseUintLoop (s0 : String) : Nat → List Char → Except NumError Nat
  | n, [] => .ok n
  | n, c :: cs =>
    if c.isDigit then
      let d := c.toNat - '0'.toNat
      if n ≥ cutoff10 then .error ⟨"ParseUint", s0, .errRange⟩
      else
        let n := n * 10 % 2 ^ 64
        let n1 := (n + d) % 2 ^ 64
        if n1 < n ∨ n1 > maxUint64 then .error ⟨"ParseUint", s0, .errRange⟩
        else parseUintLoop s0 n1 cs
    else .error ⟨"ParseUint", s0, .errSyntax⟩

/-- `strconv.ParseUint(s, 10, 64)`. -/
def parseUint (s : String) : Except NumError UInt64 :=
  if s = "" then .error ⟨"ParseUint", s, .errSyntax⟩
  else (parseUintLoop s 0 s.data).map UInt64.ofNat

/-- A run of digits whose value fits in 64 bits is read without overflow. -/
theorem parseUintLoop_digits (s0 : String) (ds : List Char) (hds : ∀ c ∈ ds, c.isDigit)
    (n : Nat) (hfit : ds.foldl shiftDigit n < 2 ^ 64) :
    parseUintLoop s0 n ds = .ok (ds.foldl shiftDigit n) := by
  induction ds generalizing n with
  | nil => rfl
  | cons c cs ih =>
    have hc : c.isDigit := hds c (List.mem_cons_self c cs)
    have hstep : shiftDigit n c < 2 ^ 64 := lt_of_le_of_lt (le_foldl_shiftDigit _ _) hfit
    have hn : ¬ n ≥ cutoff10 := by
      simp only [shiftDigit] at hstep; simp only [cutoff10, maxUint64]; omega
    have hsum : (n * 10 % 2 ^ 64 + (c.toNat - '0'.toNat)) % 2 ^ 64 = shiftDigit n c := by
      simp only [shiftDigit] at hstep ⊢
      rw [Nat.mod_eq_of_lt (by omega : n * 10 < 2 ^ 64)]
      exact Nat.mod_eq_of_lt hstep
    have hnofl : ¬ (shiftDigit n c < n * 10 % 2 ^ 64 ∨ shiftDigit n c > maxUint64) := by
      simp only [shiftDigit, maxUint64] at hstep ⊢; omega
    simp only [parseUintLoop, hc, if_true, hn, if_false, hsum, hnofl]
    exact ih (fun x hx => hds x (List.mem_cons_of_mem c hx)) _ hfit

theorem toNat_sub_le_of_isDigit {c : Char} (hc : c.isDigit = true) : c.toNat - 48 ≤ 9 := by
  simp only [Char.isDigit, Bool.and_eq_true, decide_eq_true_eq] at hc
  have : c.toNat ≤ 57 := hc.2
  omega

/-- The digit loop succeeds exactly on a run of decimal digits whose value, read on from `n`,
fits in 64 bits, and returns that value. -/
theorem parseUintLoop_eq_ok {s0 : String} {ds : List Char} {n m : Nat} (hn : n < 2 ^ 64) :
    parseUintLoop s0 n ds = .ok m ↔
      (∀ c ∈ ds, c.isDigit) ∧ ds.foldl shiftDigit n < 2 ^ 64 ∧ m = ds.foldl shiftDigit n := by
  induction ds generalizing n with
  | nil =>
    exact ⟨fun h => by cases h; exact ⟨by simp, hn, rfl⟩, fun ⟨_, _, hm⟩ => hm ▸ rfl⟩
  | cons c cs ih =>
    by_cases hc : c.isDigit
    swap
    · simp [parseUintLoop, hc]
    have hd := toNat_sub_le_of_isDigit hc
    have hrest := le_foldl_shiftDigit (shiftDigit n c) cs
    by_cases hov : shiftDigit n c < 2 ^ 64
    · have hn' : ¬ n ≥ cutoff10 := by
        simp only [shiftDigit] at hov; simp only [cutoff10, maxUint64]; omega
      have hsum : (n * 10 % 2 ^ 64 + (c.toNat - '0'.toNat)) % 2 ^ 64 = shiftDigit n c := by
        simp only [shiftDigit] at hov ⊢
        rw [Nat.mod_eq_of_lt (by omega : n * 10 < 2 ^ 64)]
        exact Nat.mod_eq_of_lt hov
      have hnofl : ¬ (shiftDigit n c < n * 10 % 2 ^ 64 ∨ shiftDigit n c > maxUint64) := by
        simp only [shiftDigit, maxUint64] at hov ⊢; omega
      simp only [parseUintLoop, hc, if_true, hn', if_false, hsum, hnofl, ih hov, List.foldl_cons,
        List.forall_mem_cons, true_and]
    · have hfail : parseUintLoop s0 n (c :: cs) ≠ .ok m := by
        simp only [parseUintLoop, hc, if_true]
        split_ifs with hcut hwrap
        · simp
        · simp
        · exfalso
          have h0 : '0'.toNat = 48 := rfl
          simp only [shiftDigit, not_lt] at hov
          simp only [cutoff10, maxUint64, not_le] at hcut
          simp only [maxUint64, not_or, not_lt, not_le] at hwrap
          omega
      simp only [hfail, false_iff, List.foldl_cons]
      omega

/-- `strconv.ParseUint` reads back the decimal rendering of every `uint64`. -/
theorem parseUint_toString (id : UInt64) : parseUint (toString id.toNat) = .ok id := by
  obtain ⟨hne, hdig, hval⟩ := toDigits_spec id.toNat
  have hlt : id.toNat < 2 ^ 64 := id.toNat_lt_size
  have hstr : toString id.toNat ≠ "" := fun h => hne (congrArg String.data h)
  have hloop := parseUintLoop_digits (toString id.toNat) _ hdig 0
    (by rw [← decimalValue, hval]; exact hlt)
  rw [parseUint, if_neg hstr]
  change (parseUintLoop _ 0 (Nat.toDigits 10 id.toNat)).map UInt64.ofNat = _
  rw [hloop, ← decimalValue, hval]
  exact congrArg Except.ok (UInt64.toNat.inj (UInt64.toNat_ofNat_of_lt hlt))

/-- `strconv.ParseUint(s, 10, 64)` accepts exactly a non-empty run of decimal digits whose
value fits in 64 bits, leading zeros allowed, and returns that value. -/
theorem parseUint_eq_ok {s : String} {id : UInt64} :
    parseUint s = .ok id ↔ s.data ≠ [] ∧ (∀ c ∈ s.data, c.isDigit) ∧ decimalValue s.data = id.toNat := by
  unfold parseUint
  split_ifs with hs
  · subst hs
    simp
  have hne : s.data ≠ [] := fun h => hs (String.ext h)
  rcases hloop : parseUintLoop s 0 s.data with e | m
  · refine ⟨fun h => (by cases h), fun ⟨_, hdig, hval⟩ => ?_⟩
    have hok := parseUintLoop_digits s s.data hdig 0 (by rw [← decimalValue, hval]; exact id.toNat_lt_size)
    rw [hloop] at hok
    cases hok
  · obtain ⟨hdig, hfit, rfl⟩ := (parseUintLoop_eq_ok (by norm_num)).mp hloop
    simp only [Except.map, Except.ok.injEq]
    constructor
    · rintro rfl
      exact ⟨hne, hdig, (UInt64.toNat_ofNat_of_lt hfit).symm⟩
    · rintro ⟨-, -, hval⟩
      rw [← decimalValue, hval]
      exact UInt64.toNat.inj (UInt64.toNat_ofNat_of_lt id.toNat_lt_size)

/-! ## ibc-go -/

/-- `icatypes.ControllerPortPrefix`. -/
def controllerPortPrefix : String := "icacontroller-"

/-- `icatypes.NewControllerPortID`: the error text is that of the wrapped
`ErrInvalidAccountAddress`. -/
def newControllerPortID (owner : String) : Except String String :=
  if trimSpace owner = "" then .error "owner address cannot be empty: invalid account address"
  else .ok (controllerPortPrefix ++ owner)

/-! ## Rate-sync port ids -/

def defaultPortOwnerPrefix : String := "pstake_ratesync_"

/-- `MustICAPortIDfromOwner`; its panic is the error. -/
def mustICAPortIDfromOwner (owner : String) : Except String String :=
  newControllerPortID owner

/-- `DefaultPortOwner`: `fmt.Sprintf("%s%v", DefaultPortOwnerPrefix, id)`. -/
def defaultPortOwner (id : UInt64) : String := defaultPortOwnerPrefix ++ toString id.toNat

/-- The errors of `IDfromPortID`: a missing prefix, or the error of `strconv.ParseUint`. -/
inductive PortIDError
  | invalidPortID (msg : String)
  | numError (e : NumError)
  deriving DecidableEq, Repr

def ownerfromPortID (portID : String) : Except String String :=
  let pre := controllerPortPrefix
  match cutPrefix portID pre with
  | (_, false) => .error ("invalid portID, expect prefix " ++ pre)
  | (idStr, true) => .ok idStr

def idfromPortID (portID : String) : Except PortIDError UInt64 :=
  let pre := controllerPortPrefix ++ defaultPortOwnerPrefix
  match cutPrefix portID pre with
  | (_, false) => .error (.invalidPortID ("invalid portID, expect prefix " ++ pre))
  | (idStr, true) =>
    match parseUint idStr with
    | .error e => .error (.numError e)
    | .ok id => .ok id

/-- An owner that is not blank gets the port id `icacontroller-<owner>`. -/
theorem mustICAPortIDfromOwner_eq {owner : String} (h : trimSpace owner ≠ "") :
    mustICAPortIDfromOwner owner = .ok (controllerPortPrefix ++ owner) := by
  simp [mustICAPortIDfromOwner, newControllerPortID, h]

theorem trimSpace_defaultPortOwner (id : UInt64) : trimSpace (defaultPortOwner id) ≠ "" :=
  trimSpace_ne_empty (c := 'p') rfl (by decide)

theorem ownerfromPortID_controllerPort (owner : String) :
    ownerfromPortID (controllerPortPrefix ++ owner) = .ok owner := by
  simp [ownerfromPortID, cutPrefix_append]

theorem idfromPortID_defaultPort (id : UInt64) :
    idfromPortID (controllerPortPrefix ++ defaultPortOwner id) = .ok id := by
  simp [idfromPortID, defaultPortOwner, ← String.append_assoc, cutPrefix_append, parseUint_toString]

/-- Every chain id's default owner gets a port id without a panic, and the id reads back from
it; every owner that is not blank reads back from its port id; so distinct chain ids get
distinct port ids. -/
theorem portID_roundTrip :
    (∀ id : UInt64, ∃ portID, mustICAPortIDfromOwner (defaultPortOwner id) = .ok portID ∧
      idfromPortID portID = .ok id) ∧
    (∀ owner, trimSpace owner ≠ "" → ∃ portID, mustICAPortIDfromOwner owner = .ok portID ∧
      ownerfromPortID portID = .ok owner) ∧
    (∀ a b : UInt64, mustICAPortIDfromOwner (defaultPortOwner a) =
      mustICAPortIDfromOwner (defaultPortOwner b) → a = b) := by
  refine ⟨fun id => ⟨_, mustICAPortIDfromOwner_eq (trimSpace_defaultPortOwner id),
      idfromPortID_defaultPort id⟩,
    fun owner h => ⟨_, mustICAPortIDfromOwner_eq h, ownerfromPortID_controllerPort owner⟩,
    fun a b hab => ?_⟩
  rw [mustICAPortIDfromOwner_eq (trimSpace_defaultPortOwner a),
    mustICAPortIDfromOwner_eq (trimSpace_defaultPortOwner b)] at hab
  have hid := congrArg idfromPortID (Except.ok.inj hab)
  rwa [idfromPortID_defaultPort, idfromPortID_defaultPort, Except.ok.injEq] at hid

theorem portID_roundTrip_owner :
    trimSpace "pstake_ratesync_7" ≠ "" ∧ ∃ portID,
      mustICAPortIDfromOwner "pstake_ratesync_7" = .ok portID ∧
      ownerfromPortID portID = .ok "pstake_ratesync_7" :=
  ⟨by decide, portID_roundTrip.2.1 "pstake_ratesync_7" (by decide)⟩

/-! ## The port ids `IDfromPortID` accepts -/

/-- `IDfromPortID` accepts exactly the port ids made of `icacontroller-pstake_ratesync_` and a
non-empty run of decimal digits, leading zeros allowed, whose value fits in 64 bits, and returns
that value. -/
theorem idfromPortID_eq_ok {portID : String} {id : UInt64} :
    idfromPortID portID = .ok id ↔ ∃ ds : List Char,
      portID = controllerPortPrefix ++ defaultPortOwnerPrefix ++ ⟨ds⟩ ∧ ds ≠ [] ∧
        (∀ c ∈ ds, c.isDigit) ∧ decimalValue ds = id.toNat := by
  simp only [idfromPortID]
  rcases hcut : cutPrefix portID (controllerPortPrefix ++ defaultPortOwnerPrefix) with
    ⟨rest, _ | _⟩
  · refine ⟨fun h => (by cases h), fun ⟨ds, hp, _⟩ => ?_⟩
    rw [hp, cutPrefix_append] at hcut
    cases hcut
  obtain rfl := cutPrefix_eq_true.mp hcut
  have hrest : ∀ ds : List Char, controllerPortPrefix ++ defaultPortOwnerPrefix ++ rest =
      controllerPortPrefix ++ defaultPortOwnerPrefix ++ ⟨ds⟩ ↔ rest.data = ds := fun ds => by
    simp [String.ext_iff]
  simp only [hrest, exists_eq_left', ← parseUint_eq_ok]
  cases parseUint rest <;> simp

example : idfromPortID "icacontroller-pstake_ratesync_07" = .ok 7 := rfl

end PstakeNative.Ratesync
