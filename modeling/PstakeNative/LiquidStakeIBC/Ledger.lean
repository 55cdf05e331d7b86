import PstakeNative.LiquidStakeIBC.Sequence

/-! # The delegation ledger

A chain's delegation balance grows only when an acknowledgement settles a deposit the keeper
sent, and then by the amount the deposit was sent with, which the deposit keeps as it becomes
received. So the balance less the amounts of the chain's received deposits, its `ledger`, does
not move. The argument rests on what the transport knows of the sent deposits
(`TransferInvariant`): a deposit carrying the sequence id of a packet in flight was sent in that
packet, with its amount. This module says what the workflows at the end of a delegation epoch
do to the deposits (`EpochEffect`); the runs are in `EpochRun`.
-/

namespace PstakeNative.LiquidStakeIBC

/-- What a deposit adds to the received amount of a chain. -/
def receivedPart (chainId : String) (d : Deposit) : Int :=
  if d.chainId = chainId ∧ d.state = .depositReceived then d.amount.amount else 0

namespace State

variable (s : State)

/-- The amounts of a chain's received deposits. -/
def receivedAmount (chainId : String) : Int :=
  (s.deposits.rows.map (receivedPart chainId)).sum

/-- A chain's delegation balance less the amounts of its received deposits. -/
def ledger (chainId : String) : Option Int :=
  (s.balance chainId).map fun b => b.amount - s.receivedAmount chainId

end State

/-! ## Received deposits -/

/-- `s'` holds exactly the received deposits of `s`, under the same keys. -/
def SameReceived (s s' : State) : Prop :=
  ∀ k d, d.state = .depositReceived → (s'.deposits.get? k = some d ↔ s.deposits.get? k = some d)

namespace SameReceived

theorem refl (s : State) : SameReceived s s := fun _ _ _ => Iff.rfl

theorem trans {s₁ s₂ s₃ : State} (h₁ : SameReceived s₁ s₂) (h₂ : SameReceived s₂ s₃) :
    SameReceived s₁ s₃ := fun k d hd => (h₂ k d hd).trans (h₁ k d hd)

/-- Deposits that are not received put nothing into the received amounts. -/
theorem receivedAmount {s s' : State} (h : SameReceived s s') :
    s'.receivedAmount = s.receivedAmount := by
  funext c
  refine Table.sum_congr fun k => ?_
  have hzero : ∀ d : Deposit, d.state ≠ .depositReceived → receivedPart c d = 0 :=
    fun d hd => if_neg fun h => hd h.2
  rcases h₁ : s'.deposits.get? k with _ | d' <;> rcases h₂ : s.deposits.get? k with _ | d
  · rfl
  · have hd : d.state ≠ .depositReceived := fun hr => by simpa [h₁] using (h k d hr).mpr h₂
    simp [hzero d hd]
  · have hd : d'.state ≠ .depositReceived := fun hr => by simpa [h₂] using (h k d' hr).mp h₁
    simp [hzero d' hd]
  · by_cases hr : d'.state = .depositReceived
    · obtain rfl : d = d' := Option.some.inj (h₂.symm.trans ((h k d' hr).mp h₁))
      rfl
    · have hd : d.state ≠ .depositReceived := fun hr' => hr <| by
        obtain rfl : d' = d := Option.some.inj (h₁.symm.trans ((h k d hr').mpr h₂))
        exact hr'
      simp [hzero d hd, hzero d' hr]

end SameReceived

/-- A step that keeps the balances and the received deposits keeps the ledger. -/
theorem ledger_eq {s s' : State} (hb : s'.balance = s.balance) (hr : SameReceived s s') :
    s'.ledger = s.ledger := by
  funext c
  simp only [State.ledger, hb, hr.receivedAmount]

@[simp] theorem receivedAmount_emit (s : State) (e : Event) :
    (s.emit e).receivedAmount = s.receivedAmount := rfl

@[simp] theorem receivedAmount_setHostChain (s : State) (hc : HostChain) :
    (s.setHostChain hc).receivedAmount = s.receivedAmount := rfl

@[simp] theorem balance_emit (s : State) (e : Event) : (s.emit e).balance = s.balance := rfl

@[simp] theorem balance_setDeposit (s : State) (d : Deposit) :
    (s.setDeposit d).balance = s.balance := rfl

theorem balance_setHostChain (s : State) (hc : HostChain) (c : String) :
    (s.setHostChain hc).balance c =
      if hc.chainId = c then some hc.delegationAccount.balance else s.balance c := by
  simp only [State.balance, State.getHostChain, State.setHostChain_hostChains, Table.get?_set]
  split_ifs <;> rfl

/-- Marking a stored deposit that is not received as received adds its amount to its chain's
received amount. -/
theorem receivedAmount_receive (s : State) {d : Deposit} (hd : s.deposits.get? d.key = some d)
    (hnot : d.state ≠ .depositReceived) (c : String) :
    (s.setDeposit { d with ibcSequenceId := "", state := .depositReceived }).receivedAmount c =
      s.receivedAmount c + if d.chainId = c then d.amount.amount else 0 := by
  have hsum := Table.sum_set s.deposits (receivedPart c)
    { d with ibcSequenceId := "", state := .depositReceived }
  have hkey : Deposit.key { d with ibcSequenceId := "", state := .depositReceived } = d.key := rfl
  rw [hkey, hd, Option.map_some', Option.getD_some, receivedPart, if_neg fun h => hnot h.2,
    add_zero] at hsum
  simp only [State.receivedAmount, State.setDeposit_deposits, hsum, receivedPart]
  by_cases hc : d.chainId = c <;> simp [hc]

/-- Settling one sent deposit credits its chain's balance with `A`, and the deposit, now received,
adds its amount to the chain's received amount: when `A` is that amount the ledger stays. -/
theorem ackDeposit_ledger {sequenceId : String} {A : Int} {a a' : State} {d : Deposit}
    (hd : a.deposits.get? d.key = some d) (hsent : d.state = .depositSent)
    (hA : A = d.amount.amount) (h : ackDeposit sequenceId A a d = .ok a') : a'.ledger = a.ledger := by
  obtain ⟨hc, e, hhc, -, rfl⟩ := ackDeposit_eq_ok h
  have hkey : hc.chainId = d.chainId := ((a.hostChains.get?_eq_some_iff).mp hhc).2
  funext c
  simp only [State.ledger, balance_emit, balance_setHostChain, balance_setDeposit,
    receivedAmount_emit, receivedAmount_setHostChain,
    receivedAmount_receive a hd (by rw [hsent]; decide), hkey]
  by_cases hcd : d.chainId = c
  · subst hcd
    have hb : a.balance d.chainId = some hc.delegationAccount.balance := by
      simp [State.balance, hhc]
    simp only [if_true, hb, Option.map_some', hA]
    congr 1
    omega
  · simp only [hcd, if_false, add_zero]

/-- The deposits loop of an acknowledgement keeps the ledger when the packet's amount is the
amount of each deposit it settles. -/
theorem ackDeposits_ledger {s s₁ : State} {sequenceId : String} {A : Int}
    (hs : SequenceInvariant s) (hid : sequenceId ≠ "")
    (hA : ∀ d ∈ s.getDepositsWithSequenceID sequenceId, A = d.amount.amount)
    (h : (s.getDepositsWithSequenceID sequenceId).foldlM (ackDeposit sequenceId A) s = .ok s₁) :
    s₁.ledger = s.ledger := by
  refine foldlM_rel_keyed (fun (a : State) k => a.deposits.get? k) Deposit.key
    (fun a a' : State => a'.ledger = a.ledger) (fun _ => rfl) (fun _ _ _ h₁ h₂ => h₂.trans h₁)
    (s.deposits.nodup_filter _) (fun _ _ _ _ h _ hk => ackDeposit_get?_of_ne h hk)
    (fun a d a' hd hv h => ?_) h
  obtain ⟨hmem, hdid⟩ : d ∈ s.deposits.rows ∧ d.ibcSequenceId = sequenceId := by
    simpa [State.getDepositsWithSequenceID] using hd
  have hget := Table.get?_key_of_mem hmem
  have hsent := (hs.sent_iff (.deposit d.key) d.state d.ibcSequenceId
    (by simp [State.tracked, hget])).mp (hdid ▸ hid)
  exact ackDeposit_ledger (hv.trans hget) hsent (hA d hd) h

/-! ## What the transport knows of the sent deposits -/

theorem nextSequenceSend_le_sendPacket (s : State) (msg : MsgTransfer) (c : String) :
    s.nextSequenceSend c ≤ (s.sendPacket msg).nextSequenceSend c := by
  by_cases hc : c = msg.sourceChannel <;> simp [Function.update, hc]

/-- Every packet in flight was sent under a sequence the transport has issued, every deposit's
sequence id names such a sequence, and a deposit carrying the id of a packet in flight was sent
in it with its amount. -/
structure TransferInvariant (s : State) : Prop where
  committed : ∀ p ∈ s.commitments, p.sequence < s.nextSequenceSend p.sourceChannel
  issued : ∀ k d, s.deposits.get? k = some d → d.ibcSequenceId ≠ "" →
    ∃ c n, d.ibcSequenceId = getTransactionSequenceID c n ∧ n < s.nextSequenceSend c
  sent_amount : ∀ p ∈ s.commitments, ∀ k d, s.deposits.get? k = some d →
    d.ibcSequenceId = getTransactionSequenceID p.sourceChannel p.sequence →
    p.data.map (·.amount) = some (toString d.amount.amount)

namespace TransferInvariant

variable {s s' : State}

/-- A step that sends no packet, lets the transport's sequences only grow, and gives no deposit a
sequence id, or an amount under an id, that it did not have keeps the invariant. -/
theorem of_ids (hs : TransferInvariant s)
    (hnext : ∀ c, s.nextSequenceSend c ≤ s'.nextSequenceSend c)
    (hcomm : ∀ p ∈ s'.commitments, p ∈ s.commitments)
    (hids : ∀ k d', s'.deposits.get? k = some d' → d'.ibcSequenceId ≠ "" →
      ∃ d, s.deposits.get? k = some d ∧ d.ibcSequenceId = d'.ibcSequenceId ∧ d.amount = d'.amount) :
    TransferInvariant s' where
  committed p hp := lt_of_lt_of_le (hs.committed p (hcomm p hp)) (hnext _)
  issued k d' hd' hid := by
    obtain ⟨d, hd, he, -⟩ := hids k d' hd' hid
    obtain ⟨c, n, hc, hn⟩ := hs.issued k d hd (he ▸ hid)
    exact ⟨c, n, he.symm.trans hc, lt_of_lt_of_le hn (hnext c)⟩
  sent_amount p hp k d' hd' hid := by
    obtain ⟨d, hd, he, ha⟩ := hids k d' hd' (hid ▸ getTransactionSequenceID_ne_empty _ _)
    rw [← ha]
    exact hs.sent_amount p (hcomm p hp) k d hd (he.trans hid)

/-- A step that keeps the transport and the deposits keeps the invariant. -/
theorem of_eq (hs : TransferInvariant s) (hn : s'.nextSequenceSend = s.nextSequenceSend)
    (hc : s'.commitments = s.commitments) (hd : s'.deposits = s.deposits) :
    TransferInvariant s' :=
  hs.of_ids (fun c => (congrFun hn c).ge) (fun _ hp => hc ▸ hp)
    fun _ d' h _ => ⟨d', hd ▸ h, rfl, rfl⟩

/-- Sending a packet under its channel's next sequence keeps the invariant: no deposit carries
that sequence's id yet. -/
theorem sendPacket (hs : TransferInvariant s) (msg : MsgTransfer) :
    TransferInvariant (s.sendPacket msg) where
  committed p hp := by
    rcases List.mem_append.mp hp with hp | hp
    · exact lt_of_lt_of_le (hs.committed p hp) (nextSequenceSend_le_sendPacket s msg _)
    · obtain rfl := List.mem_singleton.mp hp
      simp
  issued k d hd hid := by
    obtain ⟨c, n, he, hn⟩ := hs.issued k d hd hid
    exact ⟨c, n, he, lt_of_lt_of_le hn (nextSequenceSend_le_sendPacket s msg c)⟩
  sent_amount p hp k d hd hid := by
    rcases List.mem_append.mp hp with hp | hp
    · exact hs.sent_amount p hp k d hd hid
    · obtain rfl := List.mem_singleton.mp hp
      obtain ⟨c, n, he, hn⟩ := hs.issued k d hd (hid ▸ getTransactionSequenceID_ne_empty _ _)
      obtain ⟨rfl, rfl⟩ := getTransactionSequenceID_injective (hid.symm.trans he)
      exact absurd hn (lt_irrefl _)

/-- Sending a deposit's packet under its channel's next sequence and marking the deposit sent
under that sequence's id keeps the invariant, when the packet carries the deposit's amount. -/
theorem sendDeposit (hs : TransferInvariant s) {msg : MsgTransfer} {d : Deposit}
    (hamount : msg.token.amount = d.amount.amount) :
    TransferInvariant ((s.sendPacket msg).setDeposit
      { d with
        state := .depositSent
        ibcSequenceId := getTransactionSequenceID msg.sourceChannel
          (s.nextSequenceSend msg.sourceChannel) }) := by
  have hsend := hs.sendPacket msg
  refine ⟨hsend.committed, fun k d' hd' hid => ?_, fun p hp k d' hd' hid => ?_⟩ <;>
    simp only [State.setDeposit_deposits, Table.get?_set] at hd' <;> split_ifs at hd' with hk
  · cases hd'
    exact ⟨_, _, rfl, by simp⟩
  · exact hsend.issued k d' hd' hid
  · cases hd'
    obtain ⟨hc, hn⟩ := getTransactionSequenceID_injective hid
    rcases List.mem_append.mp hp with hp | hp
    · exact absurd (hs.committed p hp) (by rw [← hc, ← hn]; exact lt_irrefl _)
    · obtain rfl := List.mem_singleton.mp hp
      simp [State.packetData, hamount]
  · exact hsend.sent_amount p hp k d' hd' hid

theorem recordCall (hs : TransferInvariant s) (c : String) (r : Option RecordKey) (op : RemoteOp) :
    TransferInvariant (s.recordCall c r op) := hs.of_eq rfl rfl rfl

theorem emit (hs : TransferInvariant s) (e : Event) : TransferInvariant (s.emit e) :=
  hs.of_eq rfl rfl rfl

end TransferInvariant

/-- The registry view reads the host chains only. -/
theorem registry_congr {s s' : State} (h : s'.hostChains = s.hostChains) :
    s'.registry = s.registry := by
  funext c
  simp [State.registry, State.getHostChain, h]

theorem balance_congr {s s' : State} (h : s'.registry = s.registry) : s'.balance = s.balance := by
  funext c
  rw [balance_eq_registry, balance_eq_registry, h]

/-! ## The workflows at the end of a delegation epoch -/

/-- What the workflows at the end of delegation epoch `n` may do to the deposit under a key:
leave it, or, if it is pending, remove it when it is of an earlier epoch, or mark it sent. -/
def RowChange (n : Int) (a b : Option Deposit) : Prop :=
  b = a ∨ ∃ d, a = some d ∧ d.state = .depositPending ∧
    (d.epoch < n ∧ b = none ∨ ∃ id, b = some { d with state := .depositSent, ibcSequenceId := id })

namespace RowChange

variable {n : Int} {a b c : Option Deposit}

theorem trans (h₁ : RowChange n a b) (h₂ : RowChange n b c) : RowChange n a c := by
  rcases h₁ with rfl | h₁
  · exact h₂
  rcases h₂ with rfl | ⟨d', rfl, hp, -⟩
  · exact .inr h₁
  obtain ⟨d, -, -, ⟨-, hb⟩ | ⟨id, hb⟩⟩ := h₁
  · cases hb
  · obtain rfl := Option.some.inj hb
    simp at hp

/-- A deposit that is still there kept its epoch and its amount. -/
theorem some_right {d' : Deposit} (h : RowChange n a (some d')) :
    ∃ d, a = some d ∧ d'.epoch = d.epoch ∧ d'.amount = d.amount := by
  rcases h with rfl | ⟨d, rfl, -, ⟨-, hb⟩ | ⟨id, hb⟩⟩
  · exact ⟨d', rfl, rfl, rfl⟩
  · cases hb
  · obtain rfl := Option.some.inj hb
    exact ⟨d, rfl, rfl, rfl⟩

/-- A deposit of epoch `n` or later is not removed. -/
theorem some_left {d : Deposit} (h : RowChange n (some d) b) (he : n ≤ d.epoch) :
    ∃ d', b = some d' := by
  rcases h with rfl | ⟨d₀, h₀, -, ⟨hlt, -⟩ | ⟨id, rfl⟩⟩
  · exact ⟨d, rfl⟩
  · obtain rfl := Option.some.inj h₀
    omega
  · exact ⟨_, rfl⟩

/-- The workflows neither receive a deposit nor touch a received one. -/
theorem sameReceived {s s' : State} (h : ∀ k, RowChange n (s.deposits.get? k) (s'.deposits.get? k)) :
    SameReceived s s' := by
  intro k d hr
  rcases h k with he | ⟨d₀, h₀, hp, ⟨-, hb⟩ | ⟨id, hb⟩⟩
  · rw [he]
  all_goals rw [hb, h₀]
  all_goals constructor <;> intro h <;> cases h <;> simp_all

end RowChange

/-- What the workflows at the end of delegation epoch `n` do: each deposit changes as `RowChange`
allows, the registry and the epoch number stay, and the transport's invariant is kept. -/
structure EpochEffect (n : Int) (s s' : State) : Prop where
  rows : ∀ k, RowChange n (s.deposits.get? k) (s'.deposits.get? k)
  registry : s'.registry = s.registry
  delegationEpochNumber : s'.delegationEpochNumber = s.delegationEpochNumber
  transfer : TransferInvariant s → TransferInvariant s'

namespace EpochEffect

variable {n : Int} {s s' : State}

theorem refl (n : Int) (s : State) : EpochEffect n s s := ⟨fun _ => .inl rfl, rfl, rfl, id⟩

theorem trans {s₁ s₂ s₃ : State} (h₁ : EpochEffect n s₁ s₂) (h₂ : EpochEffect n s₂ s₃) :
    EpochEffect n s₁ s₃ :=
  ⟨fun k => (h₁.rows k).trans (h₂.rows k), h₂.registry.trans h₁.registry,
    h₂.delegationEpochNumber.trans h₁.delegationEpochNumber, h₂.transfer ∘ h₁.transfer⟩

/-- A step that keeps the deposits, the host chains, the epoch number and the transport. -/
theorem of_eq (hd : s'.deposits = s.deposits) (hh : s'.hostChains = s.hostChains)
    (he : s'.delegationEpochNumber = s.delegationEpochNumber)
    (hn : s'.nextSequenceSend = s.nextSequenceSend) (hc : s'.commitments = s.commitments) :
    EpochEffect n s s' :=
  ⟨fun k => .inl (by rw [hd]), registry_congr hh, he, fun hs => hs.of_eq hn hc hd⟩

theorem of_recordFrame (h : RecordFrame s s') : EpochEffect n s s' :=
  ⟨fun k => .inl (by rw [h.deposits]), h.registry, h.delegationEpochNumber,
    fun hs => hs.of_eq h.nextSequenceSend h.commitments h.deposits⟩

theorem ledger (h : EpochEffect n s s') : s'.ledger = s.ledger :=
  ledger_eq (balance_congr h.registry) (RowChange.sameReceived h.rows)

end EpochEffect

variable (env : Env)

/-- Submitting a transfer sends at most a packet and writes no deposit. -/
theorem submitTransfer_epochEffect {n : Int} {s s₁ : State} {c : String} {k : RecordKey}
    {msg : MsgTransfer} {r : Option Nat} (hsub : s.submitTransfer env c k msg = (r, s₁)) :
    EpochEffect n s s₁ := by
  rcases submitTransfer_cases s env hsub with ⟨-, rfl | rfl⟩ | ⟨-, rfl⟩
  · exact .of_eq rfl rfl rfl rfl rfl
  all_goals exact ⟨fun _ => .inl rfl, rfl, rfl, fun hs => (hs.recordCall _ _ _).sendPacket msg⟩

theorem depositWorkflowStep_deposits {n : Int} {d : Deposit} {s s' : State}
    (h : depositWorkflowStep env n d s = .ok s') :
    ∀ k, k ≠ d.key → s'.deposits.get? k = s.deposits.get? k := by
  intro k hk
  rcases depositWorkflowStep_cases env h with rfl | ⟨-, -, rfl⟩ | ⟨hc, r, s₁, -, -, -, hsub, hr⟩
  · rfl
  · simp only [State.deleteDeposit_deposits, Table.get?_erase]
    exact if_neg hk.symm
  have h₁ : s₁.deposits = s.deposits := by
    rcases submitTransfer_cases s env hsub with ⟨-, rfl | rfl⟩ | ⟨-, rfl⟩ <;> rfl
  rcases hr with ⟨-, rfl⟩ | ⟨m, e, -, rfl⟩
  · rw [h₁]
  · simp only [State.emit_deposits, State.setDeposit_deposits, Table.get?_set, h₁]
    exact if_neg hk.symm

/-- One pending deposit's step: the deposit is left, removed if it is empty and of an earlier
epoch, or sent with its amount. -/
theorem depositWorkflowStep_epochEffect {n : Int} {d : Deposit} {s s' : State}
    (hd : s.deposits.get? d.key = some d) (hp : d.state = .depositPending)
    (h : depositWorkflowStep env n d s = .ok s') : EpochEffect n s s' := by
  rcases depositWorkflowStep_cases env h with rfl | ⟨-, hep, rfl⟩ | ⟨hc, r, s₁, -, -, -, hsub, hr⟩
  · exact .refl _ _
  · refine ⟨fun k => ?_, rfl, rfl, fun hs => hs.of_ids (fun _ => le_rfl) (fun _ hp => hp)
      fun k d' h _ => ⟨d', ?_, rfl, rfl⟩⟩
    · simp only [State.deleteDeposit_deposits, Table.get?_erase]
      split_ifs with hk
      · subst hk
        exact .inr ⟨d, hd, hp, .inl ⟨hep, rfl⟩⟩
      · exact .inl rfl
    · simp only [State.deleteDeposit_deposits, Table.get?_erase] at h
      split_ifs at h
      exact h
  rcases hr with ⟨-, rfl⟩ | ⟨m, e, rfl, rfl⟩
  · exact submitTransfer_epochEffect env hsub
  obtain ⟨hm, rfl⟩ : some m = some (s.nextSequenceSend hc.channelId) ∧
      s₁ = (s.recordCall hc.chainId (some (.deposit d.key))
        (.transfer (depositTransfer env s hc d.amount))).sendPacket
          (depositTransfer env s hc d.amount) := by
    rcases submitTransfer_cases s env hsub with ⟨h, -⟩ | h
    · cases h
    · exact h
  obtain rfl := Option.some.inj hm
  refine ⟨fun k => ?_, rfl, rfl, fun hs => ((hs.recordCall _ _ _).sendDeposit rfl).emit e⟩
  simp only [State.emit_deposits, State.setDeposit_deposits, Table.get?_set]
  split_ifs with hk
  · subst hk
    exact .inr ⟨d, hd, hp, .inr ⟨_, rfl⟩⟩
  · exact .inl rfl

theorem depositWorkflow_epochEffect {n : Int} {s s' : State}
    (h : depositWorkflow env n s = .ok s') : EpochEffect n s s' := by
  refine foldlM_rel_keyed (fun (a : State) k => a.deposits.get? k) Deposit.key (EpochEffect n)
    (EpochEffect.refl n) (fun _ _ _ => EpochEffect.trans) (s.deposits.nodup_filter _)
    (fun _ _ _ _ h => depositWorkflowStep_deposits env h) (fun a d a' hd hv h => ?_) h
  obtain ⟨hmem, -, hpending⟩ : d ∈ s.deposits.rows ∧ d.epoch ≤ n ∧ d.state = .depositPending := by
    simpa [State.getPendingDepositsBeforeEpoch] using hd
  exact depositWorkflowStep_epochEffect env (hv.trans (Table.get?_key_of_mem hmem)) hpending h

/-- The LSM workflow sends packets and writes no deposit. -/
theorem lsmWorkflowStep_epochEffect {n : Int} {hc : HostChain} {s s' : State}
    {total total' : LegacyDec} {d : LSMDeposit}
    (h : lsmWorkflowStep env hc (s, total) d = .ok (s', total')) : EpochEffect n s s' := by
  obtain ⟨token, r, s₁, hsub, ⟨-, rfl⟩ | ⟨m, -, rfl⟩⟩ := lsmWorkflowStep_cases env h
  · exact submitTransfer_epochEffect env hsub
  · exact (submitTransfer_epochEffect env hsub).trans (.of_eq (by simp) (by simp) (by simp)
      (by simp) (by simp))

theorem lsmWorkflowChain_epochEffect {n : Int} {s s' : State} {hc : HostChain}
    (h : lsmWorkflowChain env s hc = .ok s') : EpochEffect n s s' := by
  rcases lsmWorkflowChain_cases env h with rfl | ⟨-, -, s₁, total, hloop, rfl⟩
  · exact .refl _ _
  refine EpochEffect.trans ?_ (.of_recordFrame (emit_frame s₁ _))
  exact foldlM_rel (fun a a' : State × LegacyDec => EpochEffect n a.1 a'.1) (fun a => .refl n a.1)
    (fun _ _ _ => EpochEffect.trans) (fun ⟨_, _⟩ _ ⟨_, _⟩ _ h => lsmWorkflowStep_epochEffect env h)
    hloop

theorem lsmWorkflow_epochEffect {n : Int} {s s' : State} (h : lsmWorkflow env s = .ok s') :
    EpochEffect n s s' :=
  foldlM_rel (EpochEffect n) (EpochEffect.refl n) (fun _ _ _ => EpochEffect.trans)
    (fun _ _ _ _ h => lsmWorkflowChain_epochEffect env h) h

/-- `AfterEpochEnd` at the end of epoch `n` changes the deposits only as `RowChange n` allows. -/
theorem afterEpochEnd_epochEffect {epochIdentifier : String} {n : Int} {s s' : State}
    (h : afterEpochEnd env epochIdentifier n s = .ok s') : EpochEffect n s s' :=
  afterEpochEnd_rel env (EpochEffect n) (EpochEffect.refl n) EpochEffect.trans
    (fun _ _ _ h => depositWorkflow_epochEffect env h) (fun _ _ _ h => lsmWorkflow_epochEffect env h)
    (fun _ _ _ h => .of_recordFrame (validatorUndelegationWorkflow_frame env h).1)
    (fun _ _ _ h => .of_recordFrame (undelegationWorkflow_frame env h).1)
    (fun _ s => .of_recordFrame (rewardsWorkflow_frame env _ s).1)
    (fun _ s => .of_recordFrame (rebalanceWorkflow_frame env _ s).1) h

/-- At the end of an epoch of another identifier than the delegation epoch's, `AfterEpochEnd`
writes no deposit and sends no packet. -/
theorem afterEpochEnd_recordFrame {epochIdentifier : String} {n : Int} {s s' : State}
    (hid : epochIdentifier ≠ env.delegationEpoch)
    (h : afterEpochEnd env epochIdentifier n s = .ok s') : RecordFrame s s' :=
  afterEpochEnd_rel env RecordFrame RecordFrame.refl RecordFrame.trans (fun he => absurd he hid)
    (fun he => absurd he hid) (fun _ _ _ h => (validatorUndelegationWorkflow_frame env h).1)
    (fun _ _ _ h => (undelegationWorkflow_frame env h).1) (fun _ s => (rewardsWorkflow_frame env _ s).1)
    (fun _ s => (rebalanceWorkflow_frame env _ s).1) h

/-! ## The start of a delegation epoch -/

/-- Creating the deposits of epoch `e` writes, under some keys of epoch `e`, a pending deposit
without a sequence id, and leaves every other key alone. -/
theorem createDeposits_get? (s : State) (e : Int) (k : String × Int) :
    (s.createDeposits env e).deposits.get? k = s.deposits.get? k ∨
      k.2 = e ∧ ∃ d, (s.createDeposits env e).deposits.get? k = some d ∧
        d.state = .depositPending ∧ d.ibcSequenceId = "" := by
  unfold State.createDeposits
  refine foldl_rel (fun a a' : State => ∀ k, a'.deposits.get? k = a.deposits.get? k ∨
      k.2 = e ∧ ∃ d, a'.deposits.get? k = some d ∧ d.state = .depositPending ∧
        d.ibcSequenceId = "") (fun _ _ => .inl rfl) (fun _ _ _ h₁ h₂ k => ?_)
    (fun a hc _ k => ?_) s k
  · rcases h₂ k with h | h
    · rw [h]; exact h₁ k
    · exact .inr h
  · simp only [State.setDeposit_deposits, Table.get?_set]
    split_ifs with hk
    · exact .inr ⟨by rw [← hk]; rfl, _, rfl, rfl, rfl⟩
    · exact .inl rfl

/-- Creating the deposits of an epoch none of whose deposits is received adds nothing to the
received amounts. -/
theorem createDeposits_sameReceived {s : State} {e : Int}
    (hnone : ∀ k d, s.deposits.get? k = some d → d.epoch = e → d.state ≠ .depositReceived) :
    SameReceived s (s.createDeposits env e) := by
  intro k d hr
  rcases createDeposits_get? env s e k with h | ⟨hk, d', h, hp, -⟩
  · rw [h]
  rw [h]
  refine ⟨fun h' => absurd (Option.some.inj h' ▸ hp) (by rw [hr]; decide), fun h' => ?_⟩
  have hkey := ((s.deposits.get?_eq_some_iff).mp h').2
  exact absurd hr (hnone k d h' (by rw [← hk, ← hkey]; rfl))

end PstakeNative.LiquidStakeIBC
