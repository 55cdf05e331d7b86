import Mathlib

/-! # Runs that can fail

The keeper's handlers run in `Except`: a step either fails, and its transaction or epoch hook
drops every write, or returns the next state. The lemmas here take a successful run apart: a
bind that succeeded ran both halves, and a loop that succeeded ran each of its iterations, so
what every iteration keeps, the loop keeps.
-/

namespace PstakeNative

variable {ε α β : Type}

@[simp]
theorem bind_eq_ok {x : Except ε α} {f : α → Except ε β} {b : β} :
    x >>= f = .ok b ↔ ∃ a, x = .ok a ∧ f a = .ok b := by
  cases x <;> simp [bind, Except.bind]

@[simp]
theorem map_eq_ok {x : Except ε α} {f : α → β} {b : β} :
    x.map f = .ok b ↔ ∃ a, x = .ok a ∧ f a = b := by
  cases x <;> simp [Except.map]

@[simp]
theorem pure_eq_ok {a b : α} : (pure a : Except ε α) = .ok b ↔ a = b := by
  simp [pure, Except.pure]

@[simp]
theorem throw_ne_ok {e : ε} {b : α} : (throw e : Except ε α) ≠ .ok b := by
  simp [throw, throwThe, MonadExceptOf.throw, Except.error.injEq]

@[simp]
theorem throw_bind {e : ε} {f : α → Except ε β} : (throw e : Except ε α) >>= f = throw e := rfl

@[simp]
theorem ite_throw_eq_ok {p : Prop} [Decidable p] {e : ε} {x : Except ε α} {b : α} :
    (if p then throw e else x) = .ok b ↔ ¬ p ∧ x = .ok b := by
  split <;> simp [*]

@[simp]
theorem ite_eq_ok_throw {p : Prop} [Decidable p] {e : ε} {x : Except ε α} {b : α} :
    (if p then x else throw e) = .ok b ↔ p ∧ x = .ok b := by
  split <;> simp [*]

/-- A check returns nothing: it succeeded or it did not. -/
@[simp]
theorem exists_unit_eq_ok {x : Except ε Unit} : (∃ u, x = .ok u) ↔ x = .ok () :=
  ⟨fun ⟨_, h⟩ => h, fun h => ⟨(), h⟩⟩

/-- A loop of checks succeeded when every element passed its check. -/
theorem forM_unless_eq_ok {l : List α} {p : α → Bool} {e : α → ε} :
    l.forM (fun a => (unless (p a) do throw (e a) : Except ε Unit)) = .ok () ↔
      ∀ a ∈ l, p a = true := by
  induction l with
  | nil => simp [List.forM]
  | cons a l ih => cases hp : p a <;> simp [hp, ih]

/-- A loop that cannot fail, run in `Except`, succeeds with the plain loop's result. -/
theorem foldlM_pure_eq_ok (f : α → β → α) (l : List β) (a : α) :
    l.foldlM (fun a b => (pure (f a b) : Except ε α)) a = .ok (l.foldl f a) := by
  induction l generalizing a with
  | nil => rfl
  | cons b l ih => exact ih (f a b)

section Loops

variable (R : α → α → Prop) (hrefl : ∀ a, R a a) (htrans : ∀ a b c, R a b → R b c → R a c)
include hrefl htrans

/-- A loop that succeeded relates its start to its end by every reflexive, transitive relation
that relates each iteration's start to its end. -/
theorem foldlM_rel {f : α → β → Except ε α} {l : List β}
    (hf : ∀ a b a', b ∈ l → f a b = .ok a' → R a a') {a a' : α} (h : l.foldlM f a = .ok a') :
    R a a' := by
  induction l generalizing a with
  | nil => cases h; exact hrefl _
  | cons b l ih =>
    obtain ⟨a₁, h₁, h₂⟩ := bind_eq_ok.mp h
    exact htrans _ _ _ (hf a b a₁ (List.mem_cons_self b l) h₁)
      (ih (fun a b a' hb => hf a b a' (List.mem_cons_of_mem _ hb)) h₂)

/-- The same for a loop that cannot fail. -/
theorem foldl_rel {f : α → β → α} {l : List β} (hf : ∀ a b, b ∈ l → R a (f a b)) (a : α) :
    R a (l.foldl f a) := by
  induction l generalizing a with
  | nil => exact hrefl a
  | cons b l ih =>
    exact htrans _ _ _ (hf a b (List.mem_cons_self b l))
      (ih (fun a b hb => hf a b (List.mem_cons_of_mem _ hb)) _)

end Loops

/-- A loop keeps every view of its state that each of its iterations keeps. -/
theorem foldlM_view {ν : Type} (view : α → ν) {f : α → β → Except ε α} {l : List β}
    (hf : ∀ a b a', b ∈ l → f a b = .ok a' → view a' = view a) {a a' : α}
    (h : l.foldlM f a = .ok a') : view a' = view a :=
  foldlM_rel (fun a a' => view a' = view a) (fun _ => rfl) (fun _ _ _ h₁ h₂ => h₂.trans h₁) hf h

/-- The same for a loop that cannot fail. -/
theorem foldl_view {ν : Type} (view : α → ν) {f : α → β → α} {l : List β}
    (hf : ∀ a b, b ∈ l → view (f a b) = view a) (a : α) : view (l.foldl f a) = view a :=
  foldl_rel (fun a a' => view a' = view a) (fun _ => rfl) (fun _ _ _ h₁ h₂ => h₂.trans h₁) hf a

/-! ## Loops over records with distinct keys

The workflows and callbacks loop over a snapshot of records taken before the loop, and the
iteration for a record writes only under that record's key. Since the keys are distinct, each
iteration still finds under its key what the snapshot saw, and after the loop each key holds what
its own iteration left there. -/

section Keyed

variable {κ ν : Type} (V : α → κ → ν) (key : β → κ)

/-- A loop whose iterations each write only under their own key relates its start to its end by
every reflexive, transitive relation that each iteration satisfies when it starts from what the
loop started with under its key. -/
theorem foldlM_rel_keyed (R : α → α → Prop) (hrefl : ∀ a, R a a)
    (htrans : ∀ a b c, R a b → R b c → R a c) {f : α → β → Except ε α} {l : List β}
    (hl : (l.map key).Nodup)
    (hframe : ∀ a b a', b ∈ l → f a b = .ok a' → ∀ k, k ≠ key b → V a' k = V a k)
    {a₀ a' : α}
    (hf : ∀ a b a', b ∈ l → V a (key b) = V a₀ (key b) → f a b = .ok a' → R a a')
    (h : l.foldlM f a₀ = .ok a') : R a₀ a' := by
  induction l generalizing a₀ with
  | nil => cases h; exact hrefl _
  | cons b l ih =>
    rw [List.map_cons, List.nodup_cons] at hl
    obtain ⟨a₁, h₁, h₂⟩ := bind_eq_ok.mp h
    have hkeep : ∀ b' ∈ l, V a₁ (key b') = V a₀ (key b') := fun b' hb' =>
      hframe a₀ b a₁ (List.mem_cons_self b l) h₁ _
        fun he => hl.1 (he ▸ List.mem_map_of_mem key hb')
    refine htrans _ _ _ (hf a₀ b a₁ (List.mem_cons_self b l) rfl h₁) (ih hl.2
      (fun a b a' hb => hframe a b a' (List.mem_cons_of_mem _ hb)) (fun a b' a' hb' hv => ?_) h₂)
    exact hf a b' a' (List.mem_cons_of_mem _ hb') (hv.trans (hkeep b' hb'))

/-- After a loop whose iteration for `b` writes `target b` under `key b` and nothing under any
other key, every key of the list holds its target and every other key is as before. -/
theorem foldlM_keyed_final (target : β → ν) {f : α → β → Except ε α} {l : List β}
    (hl : (l.map key).Nodup)
    (hframe : ∀ a b a', b ∈ l → f a b = .ok a' → ∀ k, k ≠ key b → V a' k = V a k)
    (hset : ∀ a b a', b ∈ l → f a b = .ok a' → V a' (key b) = target b)
    {a₀ a' : α} (h : l.foldlM f a₀ = .ok a') :
    (∀ b ∈ l, V a' (key b) = target b) ∧ ∀ k, k ∉ l.map key → V a' k = V a₀ k := by
  induction l generalizing a₀ with
  | nil => cases h; exact ⟨by simp, fun _ _ => rfl⟩
  | cons b l ih =>
    rw [List.map_cons, List.nodup_cons] at hl
    obtain ⟨a₁, h₁, h₂⟩ := bind_eq_ok.mp h
    obtain ⟨hin, hout⟩ := ih hl.2 (fun a b a' hb => hframe a b a' (List.mem_cons_of_mem _ hb))
      (fun a b a' hb => hset a b a' (List.mem_cons_of_mem _ hb)) h₂
    refine ⟨fun b' hb' => ?_, fun k hk => ?_⟩
    · rcases List.mem_cons.mp hb' with rfl | hb'
      · rw [hout _ hl.1]; exact hset a₀ b' a₁ (List.mem_cons_self _ _) h₁
      · exact hin b' hb'
    · simp only [List.map_cons, List.mem_cons, not_or] at hk
      rw [hout k hk.2]
      exact hframe a₀ b a₁ (List.mem_cons_self b l) h₁ k hk.1

/-- The same for a loop that cannot fail. -/
theorem foldl_keyed_final (target : β → ν) {f : α → β → α} {l : List β}
    (hl : (l.map key).Nodup)
    (hframe : ∀ a b, b ∈ l → ∀ k, k ≠ key b → V (f a b) k = V a k)
    (hset : ∀ a b, b ∈ l → V (f a b) (key b) = target b) (a₀ : α) :
    (∀ b ∈ l, V (l.foldl f a₀) (key b) = target b) ∧
      ∀ k, k ∉ l.map key → V (l.foldl f a₀) k = V a₀ k := by
  induction l generalizing a₀ with
  | nil => exact ⟨by simp, fun _ _ => rfl⟩
  | cons b l ih =>
    rw [List.map_cons, List.nodup_cons] at hl
    obtain ⟨hin, hout⟩ := ih hl.2 (fun a b hb => hframe a b (List.mem_cons_of_mem _ hb))
      (fun a b hb => hset a b (List.mem_cons_of_mem _ hb)) (f a₀ b)
    refine ⟨fun b' hb' => ?_, fun k hk => ?_⟩
    · rcases List.mem_cons.mp hb' with rfl | hb'
      · rw [List.foldl_cons, hout _ hl.1]; exact hset a₀ b' (List.mem_cons_self _ _)
      · exact hin b' hb'
    · simp only [List.map_cons, List.mem_cons, not_or] at hk
      rw [List.foldl_cons, hout k hk.2]
      exact hframe a₀ b (List.mem_cons_self b l) k hk.1

/-- After a loop whose iteration for `b` writes only under `key b`, each key of the list satisfies
what its own iteration establishes when it starts from what the loop started with under that key,
and every other key is as before. -/
theorem foldlM_keyed_post (P : β → ν → Prop) {f : α → β → Except ε α} {l : List β}
    (hl : (l.map key).Nodup)
    (hframe : ∀ a b a', b ∈ l → f a b = .ok a' → ∀ k, k ≠ key b → V a' k = V a k)
    {a₀ a' : α}
    (hpost : ∀ a b a', b ∈ l → V a (key b) = V a₀ (key b) → f a b = .ok a' → P b (V a' (key b)))
    (h : l.foldlM f a₀ = .ok a') :
    (∀ b ∈ l, P b (V a' (key b))) ∧ ∀ k, k ∉ l.map key → V a' k = V a₀ k := by
  induction l generalizing a₀ with
  | nil => cases h; exact ⟨by simp, fun _ _ => rfl⟩
  | cons b l ih =>
    rw [List.map_cons, List.nodup_cons] at hl
    obtain ⟨a₁, h₁, h₂⟩ := bind_eq_ok.mp h
    -- the first iteration leaves the keys of the rest as the loop found them
    have hkeep : ∀ k, k ≠ key b → V a₁ k = V a₀ k := hframe a₀ b a₁ (List.mem_cons_self b l) h₁
    obtain ⟨hin, hout⟩ := ih hl.2 (fun a b a' hb => hframe a b a' (List.mem_cons_of_mem _ hb))
      (fun a b' a' hb' hv => hpost a b' a' (List.mem_cons_of_mem _ hb') <| hv.trans <|
        hkeep _ fun he => hl.1 (he ▸ List.mem_map_of_mem key hb')) h₂
    refine ⟨fun b' hb' => ?_, fun k hk => ?_⟩
    · rcases List.mem_cons.mp hb' with rfl | hb'
      · rw [hout _ hl.1]; exact hpost a₀ b' a₁ (List.mem_cons_self _ _) rfl h₁
      · exact hin b' hb'
    · simp only [List.map_cons, List.mem_cons, not_or] at hk
      rw [hout k hk.2, hkeep k hk.1]

end Keyed

end PstakeNative
