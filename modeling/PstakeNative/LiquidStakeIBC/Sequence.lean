import PstakeNative.LiquidStakeIBC.Settlement

/-! # Sequence ids of the tracked records

The reconciler joins a sent record to its packet through the sequence id that
`GetTransactionSequenceID` composes from the packet's channel and sequence. `SequenceInvariant`
says the join is sound: a record carries a sequence id exactly when it is sent, every id it
carries was issued by the transport, and no two records carry the same id. Every action of the
keeper keeps it, and along the reconciliation engine's runs each step changes a record only by a
transition of its action (`AfterEpochEnd` sends or removes a pending record, a successful
acknowledgement receives a sent one, a timeout reverts it), submitting transfers for pending
records only.
-/

namespace PstakeNative.LiquidStakeIBC

/-- The invariant of the tracked records' sequence ids. -/
structure SequenceInvariant (s : State) : Prop where
  sent_iff : ∀ k st id, s.tracked k = some (st, id) → (id ≠ "" ↔ st = .depositSent)
  issued : ∀ k st id, s.tracked k = some (st, id) → id ≠ "" →
    ∃ c n, id = getTransactionSequenceID c n ∧ n < s.nextSequenceSend c
  unique : ∀ k k' st st' id, s.tracked k = some (st, id) → s.tracked k' = some (st', id) →
    id ≠ "" → k = k'

/-- A change of one tracked record that clears it: the record is left alone, removed, or given a
state other than sent and no sequence id. -/
def Clears (a b : Option (DepositState × String)) : Prop :=
  b = a ∨ b = none ∨ ∃ st, st ≠ .depositSent ∧ b = some (st, "")

namespace SequenceInvariant

variable {s s' : State}

/-- Clearing records, while the transport's sequences only grow, keeps the invariant. -/
theorem of_clears (hs : SequenceInvariant s)
    (hnext : ∀ c, s.nextSequenceSend c ≤ s'.nextSequenceSend c)
    (hk : ∀ k, Clears (s.tracked k) (s'.tracked k)) : SequenceInvariant s' := by
  have hold : ∀ k st id, s'.tracked k = some (st, id) → id ≠ "" → s.tracked k = some (st, id) :=
    fun k st id h hid => by
      rcases hk k with he | he | ⟨_, -, he⟩ <;> rw [he] at h
      · exact h
      · cases h
      · cases h; exact absurd rfl hid
  refine ⟨fun k st id h => ?_, fun k st id h hid => ?_, fun k k' st st' id h h' hid =>
    hs.unique k k' st st' id (hold k st id h hid) (hold k' st' id h' hid) hid⟩
  · rcases hk k with he | he | ⟨st', hst, he⟩ <;> rw [he] at h
    · exact hs.sent_iff k st id h
    · cases h
    · cases h; simpa using hst
  · obtain ⟨c, n, rfl, hn⟩ := hs.issued k st id (hold k st id h hid) hid
    exact ⟨c, n, rfl, lt_of_lt_of_le hn (hnext c)⟩

/-- No record carries an id the transport has not issued yet. -/
theorem fresh (hs : SequenceInvariant s) {c : String} {n : Nat} (hn : s.nextSequenceSend c ≤ n)
    (k : RecordKey) (st : DepositState) : s.tracked k ≠ some (st, getTransactionSequenceID c n) := by
  intro h
  obtain ⟨c', m, he, hm⟩ := hs.issued k st _ h (getTransactionSequenceID_ne_empty c n)
  obtain ⟨rfl, rfl⟩ := getTransactionSequenceID_injective he
  omega

/-- Marking one record sent under the id of a sequence the transport has just issued keeps the
invariant. -/
theorem send (hs : SequenceInvariant s)
    (hnext : ∀ c, s.nextSequenceSend c ≤ s'.nextSequenceSend c) {k : RecordKey} {c : String}
    {n : Nat} (hfresh : s.nextSequenceSend c ≤ n) (hn : n < s'.nextSequenceSend c)
    (htr : s'.tracked =
      Function.update s.tracked k (some (.depositSent, getTransactionSequenceID c n))) :
    SequenceInvariant s' := by
  have hat : ∀ k' st id, s'.tracked k' = some (st, id) →
      k' = k ∧ st = .depositSent ∧ id = getTransactionSequenceID c n ∨
      k' ≠ k ∧ s.tracked k' = some (st, id) := fun k' st id h => by
    rw [htr] at h
    by_cases hk : k' = k
    · subst hk
      simp only [Function.update_same, Option.some.injEq, Prod.mk.injEq] at h
      exact .inl ⟨rfl, h.1.symm, h.2.symm⟩
    · rw [Function.update_noteq hk] at h
      exact .inr ⟨hk, h⟩
  refine ⟨fun k' st id h => ?_, fun k' st id h hid => ?_, fun k₁ k₂ st₁ st₂ id h₁ h₂ hid => ?_⟩
  · rcases hat k' st id h with ⟨-, rfl, rfl⟩ | ⟨-, h⟩
    · simp [getTransactionSequenceID_ne_empty]
    · exact hs.sent_iff k' st id h
  · rcases hat k' st id h with ⟨-, -, rfl⟩ | ⟨-, h⟩
    · exact ⟨c, n, rfl, hn⟩
    · obtain ⟨c', m, rfl, hm⟩ := hs.issued k' st id h hid
      exact ⟨c', m, rfl, lt_of_lt_of_le hm (hnext c')⟩
  · rcases hat k₁ st₁ id h₁ with ⟨rfl, -, he₁⟩ | ⟨-, h₁⟩ <;>
      rcases hat k₂ st₂ id h₂ with ⟨rfl, -, he₂⟩ | ⟨-, h₂⟩
    · rfl
    · exact absurd (he₁ ▸ h₂) (hs.fresh hfresh k₂ st₂)
    · exact absurd (he₂ ▸ h₁) (hs.fresh hfresh k₁ st₁)
    · exact hs.unique k₁ k₂ st₁ st₂ id h₁ h₂ hid

/-- A pending record carries no sequence id. -/
theorem pending_id (hs : SequenceInvariant s) {k : RecordKey} {id : String}
    (h : s.tracked k = some (.depositPending, id)) : id = "" := by
  by_contra hid
  exact absurd ((hs.sent_iff k _ id h).mp hid) (by decide)

end SequenceInvariant

/-! ## A keeper that holds no sent record -/

theorem genesis_tracked (hostChains : Table HostChain.chainId) (epoch : Int) (k : RecordKey) :
    (State.genesis hostChains epoch).tracked k = none := by
  cases k <;> rfl

theorem genesis_sequenceInvariant (hostChains : Table HostChain.chainId) (epoch : Int) :
    SequenceInvariant (State.genesis hostChains epoch) where
  sent_iff k _ _ h := by rw [genesis_tracked] at h; cases h
  issued k _ _ h := by rw [genesis_tracked] at h; cases h
  unique k _ _ _ _ h := by rw [genesis_tracked] at h; cases h

/-- Storing a deposit that is not sent and carries no sequence id keeps the invariant. -/
theorem SequenceInvariant.setDeposit {s : State} (hs : SequenceInvariant s) {d : Deposit}
    (hd : d.state ≠ .depositSent) (hid : d.ibcSequenceId = "") :
    SequenceInvariant (s.setDeposit d) := by
  refine hs.of_clears (fun _ => le_rfl) fun k => ?_
  rw [tracked_setDeposit]
  by_cases hk : k = .deposit d.key
  · subst hk; exact .inr (.inr ⟨d.state, hd, by simp [hid]⟩)
  · exact .inl (Function.update_noteq hk _ _)

/-! ## What the workflows do -/

/-- What a workflow may do to one tracked record: leave it, or send or remove it if it is
pending. -/
def WfChange (a b : Option (DepositState × String)) : Prop :=
  b = a ∨ (∃ id, a = some (.depositPending, id)) ∧ (b = none ∨ ∃ id, b = some (.depositSent, id))

theorem WfChange.trans {a b c : Option (DepositState × String)} (h₁ : WfChange a b)
    (h₂ : WfChange b c) : WfChange a c := by
  rcases h₁ with rfl | ⟨hp, hb⟩
  · exact h₂
  rcases h₂ with rfl | ⟨⟨id, rfl⟩, -⟩
  · exact .inr ⟨hp, hb⟩
  · rcases hb with hb | ⟨_, hb⟩ <;> cases hb

/-- The transfers a step submits are for records pending at its start. -/
def PendingTransfers (s : State) (c : RemoteCall) : Prop :=
  ∀ k, c.record = some k → ∃ id, s.tracked k = some (.depositPending, id)

/-- What the epoch workflows do to the tracked records: each record is left alone, or, if it is
pending, sent or removed; the transfers submitted are for pending records; and the sequence
invariant is kept. -/
structure WorkflowEffect (s s' : State) : Prop where
  tracked : ∀ k, WfChange (s.tracked k) (s'.tracked k)
  transfers : CallsFrom (PendingTransfers s) s s'
  invariant : SequenceInvariant s → SequenceInvariant s'

namespace WorkflowEffect

variable {s s' : State}

theorem refl (s : State) : WorkflowEffect s s := ⟨fun _ => .inl rfl, .refl s, id⟩

theorem trans {s₁ s₂ s₃ : State} (h₁ : WorkflowEffect s₁ s₂) (h₂ : WorkflowEffect s₂ s₃) :
    WorkflowEffect s₁ s₃ where
  tracked k := (h₁.tracked k).trans (h₂.tracked k)
  transfers := h₁.transfers.trans <| h₂.transfers.mono fun c hc k hk => by
    obtain ⟨id, hid⟩ := hc k hk
    rcases h₁.tracked k with he | ⟨hp, hb⟩
    · exact ⟨id, he ▸ hid⟩
    · rcases hb with hb | ⟨_, hb⟩ <;> rw [hb] at hid <;> cases hid
  invariant := h₂.invariant ∘ h₁.invariant

/-- A step that keeps the tracked records and the transport's sequences, and submits only
transfers of pending records. -/
theorem of_tracked (ht : s'.tracked = s.tracked)
    (hnext : ∀ c, s.nextSequenceSend c ≤ s'.nextSequenceSend c)
    (hcalls : CallsFrom (PendingTransfers s) s s') : WorkflowEffect s s' :=
  ⟨fun k => .inl (congrFun ht k), hcalls,
    fun hs => hs.of_clears hnext fun k => .inl (congrFun ht k)⟩

theorem of_recordFrame (h : RecordFrame s s') : WorkflowEffect s s' :=
  of_tracked h.tracked (fun c => (congrFun h.nextSequenceSend c).ge)
    (h.remoteCalls.mono fun c hc k hk => by rw [hc] at hk; cases hk)

end WorkflowEffect

variable (env : Env)

/-- A transfer submitted for a pending record. -/
theorem submitTransfer_effect {s s₁ : State} {c : String} {k : RecordKey} {msg : MsgTransfer}
    {r : Option Nat} (hk : ∃ id, s.tracked k = some (.depositPending, id))
    (hsub : s.submitTransfer env c k msg = (r, s₁)) : WorkflowEffect s s₁ := by
  have hcall : CallsFrom (PendingTransfers s) s (s.recordCall c (some k) (.transfer msg)) :=
    .recordCall s c _ _ fun k' hk' => by cases hk'; exact hk
  rcases submitTransfer_cases s env hsub with ⟨-, rfl | rfl⟩ | ⟨-, rfl⟩
  · exact .of_tracked (by simp) (fun _ => le_rfl) hcall
  all_goals refine .of_tracked (by simp) (fun c' => ?_) (hcall.trans (.of_eq rfl))
  all_goals by_cases hc : c' = msg.sourceChannel
  all_goals simp [Function.update, hc]

/-- A transfer submitted for a pending record whose packet's sequence is known, and the record
marked sent under it. -/
theorem submitTransfer_send_effect {s s₁ : State} {c : String} {k : RecordKey} {msg : MsgTransfer}
    {n : Nat} {s' : State} (hk : ∃ id, s.tracked k = some (.depositPending, id))
    (hsub : s.submitTransfer env c k msg = (some n, s₁))
    (htr : s'.tracked = Function.update s₁.tracked k
      (some (.depositSent, getTransactionSequenceID msg.sourceChannel n)))
    (hnext : s'.nextSequenceSend = s₁.nextSequenceSend) (hcalls : s'.remoteCalls = s₁.remoteCalls) :
    WorkflowEffect s s' := by
  rcases submitTransfer_cases s env hsub with ⟨h, -⟩ | ⟨hn, rfl⟩
  · cases h
  cases hn
  have ht₁ : ((s.recordCall c (some k) (.transfer msg)).sendPacket msg).tracked = s.tracked := by
    simp
  refine ⟨fun k' => ?_, ⟨[⟨c, some k, .transfer msg⟩], by rw [hcalls]; rfl, ?_⟩,
    fun hs => hs.send (fun c' => ?_) le_rfl ?_ (by rw [htr, ht₁])⟩
  · rw [htr, ht₁]
    by_cases hk' : k' = k
    · subst hk'; exact .inr ⟨hk, .inr ⟨_, Function.update_same _ _ _⟩⟩
    · exact .inl (Function.update_noteq hk' _ _)
  · simpa [PendingTransfers] using hk
  · rw [hnext]
    by_cases hc : c' = msg.sourceChannel <;> simp [Function.update, hc]
  · simp [hnext]

/-! ## The deposit workflow -/

theorem depositWorkflowStep_tracked {epoch : Int} {d : Deposit} {s s' : State}
    (h : depositWorkflowStep env epoch d s = .ok s') :
    ∀ k, k ≠ .deposit d.key → s'.tracked k = s.tracked k := by
  intro k hk
  rcases depositWorkflowStep_cases env h with rfl | ⟨-, -, rfl⟩ | ⟨hc, r, s₁, -, -, -, hsub, hr⟩
  · rfl
  · simp [Function.update_noteq hk]
  have h₁ : s₁.tracked = s.tracked := by
    rcases submitTransfer_cases s env hsub with ⟨-, rfl | rfl⟩ | ⟨-, rfl⟩ <;> simp
  rcases hr with ⟨-, rfl⟩ | ⟨n, e, -, rfl⟩
  · rw [h₁]
  · simp only [tracked_emit, tracked_setDeposit, h₁]
    exact Function.update_noteq hk _ _

theorem depositWorkflowStep_effect {epoch : Int} {d : Deposit} {s s' : State}
    (hd : s.tracked (.deposit d.key) = some (.depositPending, d.ibcSequenceId))
    (h : depositWorkflowStep env epoch d s = .ok s') : WorkflowEffect s s' := by
  rcases depositWorkflowStep_cases env h with rfl | ⟨-, -, rfl⟩ | ⟨hc, r, s₁, -, -, -, hsub, hr⟩
  · exact .refl _
  · have ht := tracked_deleteDeposit s d
    refine ⟨fun k => ?_, .of_eq rfl, fun hs => hs.of_clears (fun _ => le_rfl) fun k => ?_⟩ <;>
      rw [ht] <;> by_cases hk : k = .deposit d.key
    · subst hk; rw [Function.update_same]; exact .inr ⟨⟨_, hd⟩, .inl rfl⟩
    · rw [Function.update_noteq hk]; exact .inl rfl
    · subst hk; rw [Function.update_same]; exact .inr (.inl rfl)
    · rw [Function.update_noteq hk]; exact .inl rfl
  rcases hr with ⟨-, rfl⟩ | ⟨n, e, rfl, rfl⟩
  · exact submitTransfer_effect env ⟨_, hd⟩ hsub
  · exact submitTransfer_send_effect env ⟨_, hd⟩ hsub (by simp; rfl) rfl rfl

theorem depositWorkflow_effect {epoch : Int} {s s' : State}
    (h : depositWorkflow env epoch s = .ok s') : WorkflowEffect s s' := by
  refine foldlM_rel_keyed (fun (a : State) k => a.tracked k) (fun d : Deposit => RecordKey.deposit d.key)
    WorkflowEffect WorkflowEffect.refl (fun _ _ _ => WorkflowEffect.trans) ?_
    (fun a d a' _ h => depositWorkflowStep_tracked env h) (fun a d a' hd hv h => ?_) h
  · simpa [List.map_map] using (s.deposits.nodup_filter _).map fun _ _ => RecordKey.deposit.inj
  · obtain ⟨hmem, -, hpending⟩ : d ∈ s.deposits.rows ∧ d.epoch ≤ epoch ∧ d.state = .depositPending := by
      simpa [State.getPendingDepositsBeforeEpoch] using hd
    refine depositWorkflowStep_effect env ((hv.trans (tracked_of_mem_deposits s hmem)).trans ?_) h
    rw [hpending]

/-! ## The LSM workflow -/

theorem lsmWorkflowStep_tracked {hc : HostChain} {a a' : State × LegacyDec} {d : LSMDeposit}
    (h : lsmWorkflowStep env hc a d = .ok a') :
    ∀ k, k ≠ .lsmDeposit d.key → a'.1.tracked k = a.1.tracked k := by
  obtain ⟨s, total⟩ := a
  obtain ⟨s', total'⟩ := a'
  obtain ⟨token, r, s₁, hsub, hr⟩ := lsmWorkflowStep_cases env h
  have h₁ : s₁.tracked = s.tracked := by
    rcases submitTransfer_cases s env hsub with ⟨-, rfl | rfl⟩ | ⟨-, rfl⟩ <;> simp
  intro k hk
  rcases hr with ⟨-, rfl⟩ | ⟨n, -, rfl⟩
  · exact congrFun h₁ k
  · simp only [State.updateLSMDepositsStateAndSequence, List.foldl_cons, List.foldl_nil,
      tracked_setLSMDeposit, h₁]
    exact Function.update_noteq hk _ _

theorem lsmWorkflowStep_effect {hc : HostChain} {s s' : State} {total total' : LegacyDec}
    {d : LSMDeposit} (hd : s.tracked (.lsmDeposit d.key) = some (.depositPending, d.ibcSequenceId))
    (h : lsmWorkflowStep env hc (s, total) d = .ok (s', total')) : WorkflowEffect s s' := by
  obtain ⟨token, r, s₁, hsub, ⟨rfl, rfl⟩ | ⟨n, rfl, rfl⟩⟩ := lsmWorkflowStep_cases env h
  · exact submitTransfer_effect env ⟨_, hd⟩ hsub
  · exact submitTransfer_send_effect env ⟨_, hd⟩ hsub
      (by simp [State.updateLSMDepositsStateAndSequence]; rfl) rfl rfl

theorem lsmWorkflowChain_effect {s s' : State} {hc : HostChain}
    (h : lsmWorkflowChain env s hc = .ok s') : WorkflowEffect s s' := by
  rcases lsmWorkflowChain_cases env h with rfl | ⟨-, -, s₁, total, hloop, rfl⟩
  · exact .refl _
  refine WorkflowEffect.trans ?_ (.of_recordFrame (emit_frame s₁ _))
  refine foldlM_rel_keyed (fun (a : State × LegacyDec) k => a.1.tracked k)
    (fun d : LSMDeposit => RecordKey.lsmDeposit d.key) (fun a a' => WorkflowEffect a.1 a'.1)
    (fun a => .refl a.1) (fun _ _ _ => WorkflowEffect.trans) ?_
    (fun a d a' _ h => lsmWorkflowStep_tracked env h) (fun a d a' hd hv h => ?_) hloop
  · simpa [List.map_map] using
      (s.lsmDeposits.nodup_filter _).map fun _ _ => RecordKey.lsmDeposit.inj
  · obtain ⟨a, t⟩ := a
    obtain ⟨a', t'⟩ := a'
    obtain ⟨hmem, -, hpending⟩ : d ∈ s.lsmDeposits.rows ∧ d.chainId = hc.chainId ∧
        d.state = .depositPending := by
      simpa [State.getTransferableLSMDeposits] using hd
    refine lsmWorkflowStep_effect env ((hv.trans (tracked_of_mem_lsmDeposits s hmem)).trans ?_) h
    rw [hpending]

theorem lsmWorkflow_effect {s s' : State} (h : lsmWorkflow env s = .ok s') : WorkflowEffect s s' :=
  foldlM_rel WorkflowEffect WorkflowEffect.refl (fun _ _ _ => WorkflowEffect.trans)
    (fun _ _ _ _ h => lsmWorkflowChain_effect env h) h

/-- `AfterEpochEnd` sends or removes pending records and leaves every other record alone. -/
theorem afterEpochEnd_effect {epochIdentifier : String} {epochNumber : Int} {s s' : State}
    (h : afterEpochEnd env epochIdentifier epochNumber s = .ok s') : WorkflowEffect s s' :=
  afterEpochEnd_rel env WorkflowEffect WorkflowEffect.refl WorkflowEffect.trans
    (fun _ _ _ h => depositWorkflow_effect env h) (fun _ _ _ h => lsmWorkflow_effect env h)
    (fun _ _ _ h => .of_recordFrame (validatorUndelegationWorkflow_frame env h).1)
    (fun _ _ _ h => .of_recordFrame (undelegationWorkflow_frame env h).1)
    (fun _ s => .of_recordFrame (rewardsWorkflow_frame env _ s).1)
    (fun _ s => .of_recordFrame (rebalanceWorkflow_frame env _ s).1) h

/-! ## The deposit state machine -/

/-- The transitions of a deposit or an LSM deposit under each action of the reconciliation
engine: `AfterEpochEnd` sends or removes a pending record, a successful acknowledgement receives
the records sent in its packet and a timeout reverts them to pending, both clearing the sequence
id, and any action may leave a record as it is. A received packet moves no record. -/
inductive ActionChange :
    Action → Option (DepositState × String) → Option (DepositState × String) → Prop
  | same (a : Action) (r : Option (DepositState × String)) : ActionChange a r r
  | send (epochIdentifier : String) (epochNumber : Int) (id id' : String) :
      ActionChange (.afterEpochEnd epochIdentifier epochNumber) (some (.depositPending, id))
        (some (.depositSent, id'))
  | remove (epochIdentifier : String) (epochNumber : Int) (id : String) :
      ActionChange (.afterEpochEnd epochIdentifier epochNumber) (some (.depositPending, id)) none
  | receive (packet : Packet) (ack : Acknowledgement) (hsuccess : ack.success = true) :
      ActionChange (.acknowledgePacket packet (some ack) none)
        (some (.depositSent, getTransactionSequenceID packet.sourceChannel packet.sequence))
        (some (.depositReceived, ""))
  | revert (packet : Packet) :
      ActionChange (.timeoutPacket packet none)
        (some (.depositSent, getTransactionSequenceID packet.sourceChannel packet.sequence))
        (some (.depositPending, ""))

/-- A received record never changes. -/
theorem ActionChange.received {a : Action} {id : String} {b : Option (DepositState × String)}
    (h : ActionChange a (some (.depositReceived, id)) b) : b = some (.depositReceived, id) := by
  cases h; rfl

/-- A record settled by a transition is no longer sent. -/
theorem ActionChange.settled_ne_sent {a : Action} {sequenceId : String} {state : DepositState}
    (hid : sequenceId ≠ "")
    (h : ActionChange a (some (.depositSent, sequenceId)) (some (state, ""))) :
    state ≠ .depositSent := by
  cases h with
  | same => exact absurd rfl hid
  | receive | revert => decide

theorem WfChange.actionChange {epochIdentifier : String} {epochNumber : Int}
    {a b : Option (DepositState × String)} (h : WfChange a b) :
    ActionChange (.afterEpochEnd epochIdentifier epochNumber) a b := by
  rcases h with rfl | ⟨⟨id, rfl⟩, rfl | ⟨id', rfl⟩⟩
  · exact .same _ _
  · exact .remove _ _ id
  · exact .send _ _ id id'

section Settle

variable {s : State} {a : Action} {sequenceId : String} {state : DepositState}

/-- Settling a packet clears the records carrying its id. -/
theorem clears_settle (hst : state ≠ .depositSent) (r : Option (DepositState × String)) :
    Clears r (r.map (settle sequenceId state)) := by
  rcases r with _ | ⟨st, id⟩
  · exact .inl rfl
  · by_cases h : id = sequenceId
    · exact .inr (.inr ⟨state, hst, by simp [settle, h]⟩)
    · exact .inl (by simp [settle, h])

/-- Settling a packet moves the records carrying its id, which are sent, to `state`: a transition
of every action that may settle a sent record so. -/
theorem actionChange_settle (hs : SequenceInvariant s) (hid : sequenceId ≠ "")
    (hsettle : ActionChange a (some (.depositSent, sequenceId)) (some (state, "")))
    (k : RecordKey) : ActionChange a (s.tracked k) ((s.tracked k).map (settle sequenceId state)) := by
  rcases hk : s.tracked k with _ | ⟨st, id⟩
  · exact .same a _
  by_cases h : id = sequenceId
  · subst h
    obtain rfl := (hs.sent_iff k st id hk).mp hid
    simpa [settle] using hsettle
  · simp only [Option.map_some', settle, if_neg h]
    exact .same a _

end Settle

/-- How a callback under action `a` leaves the tracked records: as they were, or with the
records of one packet settled by a transition of `a`. -/
def SettledBy (a : Action) (s s' : State) : Prop :=
  s'.tracked = s.tracked ∨ ∃ sequenceId state, sequenceId ≠ "" ∧
    ActionChange a (some (.depositSent, sequenceId)) (some (state, "")) ∧
    ∀ k, s'.tracked k = (s.tracked k).map (settle sequenceId state)

/-- A callback settles records only on a successful acknowledgement, which receives them. -/
theorem onAcknowledgementIBCTransferPacket_settledBy {s s' : State} {packet : Packet}
    {acknowledgement : Option Acknowledgement} {transferAckErr : Option String}
    (h : onAcknowledgementIBCTransferPacket env packet acknowledgement transferAckErr s = .ok s') :
    SettledBy (.acknowledgePacket packet acknowledgement transferAckErr) s s' := by
  obtain ⟨rfl, ack, data, _, rfl, hsuccess, hdata, -, (⟨-, rfl⟩ | ⟨hsender, -⟩)⟩ :=
    onAcknowledgementIBCTransferPacket_eq_ok env h
  · exact .inl rfl
  · exact .inr ⟨_, _, getTransactionSequenceID_ne_empty _ _, .receive packet ack hsuccess,
      onAcknowledgementIBCTransferPacket_tracked env hdata hsender h⟩

/-- A timeout settles records only when it carries no error, and reverts them. -/
theorem onTimeoutIBCTransferPacket_settledBy {s s' : State} {packet : Packet}
    {transferTimeoutErr : Option String}
    (h : onTimeoutIBCTransferPacket env packet transferTimeoutErr s = .ok s') :
    SettledBy (.timeoutPacket packet transferTimeoutErr) s s' := by
  obtain ⟨rfl, data, hdata, (⟨-, rfl⟩ | ⟨hsender, -⟩)⟩ := onTimeoutIBCTransferPacket_eq_ok env h
  · exact .inl rfl
  · exact .inr ⟨_, _, getTransactionSequenceID_ne_empty _ _, .revert packet,
      onTimeoutIBCTransferPacket_tracked env hdata hsender h⟩

/-- A callback that settles at most one packet and leaves the transport and the remote calls
alone. -/
theorem callback_effect {s s' : State} {a : Action} (hs : SequenceInvariant s)
    (hsettled : SettledBy a s s') (hnext : s'.nextSequenceSend = s.nextSequenceSend)
    (hcalls : s'.remoteCalls = s.remoteCalls) :
    SequenceInvariant s' ∧ (∀ k, ActionChange a (s.tracked k) (s'.tracked k)) ∧
      CallsFrom (PendingTransfers s) s s' := by
  have hnext : ∀ c, s.nextSequenceSend c ≤ s'.nextSequenceSend c := fun c => (congrFun hnext c).ge
  rcases hsettled with ht | ⟨id, state, hid, hsettle, ht⟩
  · exact ⟨hs.of_clears hnext fun k => .inl (congrFun ht k), fun k => ht ▸ .same a _,
      .of_eq hcalls⟩
  · exact ⟨hs.of_clears hnext fun k => ht k ▸ clears_settle (hsettle.settled_ne_sent hid) _,
      fun k => ht k ▸ actionChange_settle hs hid hsettle k, .of_eq hcalls⟩

/-- One step of the reconciliation engine keeps the invariant, changes each record by a
transition of its action, and submits transfers for pending records only. -/
theorem reconcileStep_effect {s : State} (hs : SequenceInvariant s) {a : Action}
    (ha : a.IsReconciliation) :
    SequenceInvariant (step env s a) ∧
      (∀ k, ActionChange a (s.tracked k) ((step env s a).tracked k)) ∧
      CallsFrom (PendingTransfers s) s (step env s a) := by
  have hunchanged : SequenceInvariant s ∧ (∀ k, ActionChange a (s.tracked k) (s.tracked k)) ∧
      CallsFrom (PendingTransfers s) s s := ⟨hs, fun _ => .same a _, .refl s⟩
  cases a with
  | beforeEpochStart | epochTick => exact ha.elim
  | afterEpochEnd epochIdentifier n =>
    simp only [step]
    rcases h : afterEpochEnd env epochIdentifier n s with _ | s'
    · exact hunchanged
    · have heff := afterEpochEnd_effect env h
      exact ⟨heff.invariant hs, fun k => (heff.tracked k).actionChange, heff.transfers⟩
  | recvPacket packet ack =>
    simp only [step]
    rcases h : onRecvIBCTransferPacket env packet ack s with _ | s'
    · exact hunchanged
    · obtain ⟨ht, -, hframe⟩ := onRecvIBCTransferPacket_effect env h
      exact callback_effect hs (.inl ht) hframe.nextSequenceSend hframe.remoteCalls
  | acknowledgePacket packet ack err =>
    simp only [step]
    rcases h : onAcknowledgementIBCTransferPacket env packet ack err s with _ | s'
    · exact hunchanged
    · have hframe := onAcknowledgementIBCTransferPacket_frame env h
      exact callback_effect hs (by simpa using onAcknowledgementIBCTransferPacket_settledBy env h)
        hframe.nextSequenceSend hframe.remoteCalls
  | timeoutPacket packet err =>
    simp only [step]
    rcases h : onTimeoutIBCTransferPacket env packet err s with _ | s'
    · exact hunchanged
    · have hframe := onTimeoutIBCTransferPacket_frame env h
      exact callback_effect hs (by simpa using onTimeoutIBCTransferPacket_settledBy env h)
        hframe.nextSequenceSend hframe.remoteCalls

/-! ## Runs -/

theorem reconcileRun_invariant {s₀ s : State} (h₀ : SequenceInvariant s₀)
    (hrun : Relation.ReflTransGen (ReconcileStep env) s₀ s) : SequenceInvariant s := by
  induction hrun with
  | refl => exact h₀
  | tail _ hstep ih =>
    obtain ⟨a, ha, rfl⟩ := hstep
    exact (reconcileStep_effect env ih ha).1

/-- Along every run of the reconciliation engine from a state with sound sequence ids, the ids
stay sound, and every further step changes a record only by a transition of its action: only
`AfterEpochEnd` sends or removes a pending record, only a successful acknowledgement of a packet
receives the records sent in it, only a timeout of a packet reverts them to pending, and a
received packet moves nothing. A step never touches a received record and submits transfers
only for pending records. -/
theorem reconcile_sequence_run {s₀ s : State} (h₀ : SequenceInvariant s₀)
    (hrun : Relation.ReflTransGen (ReconcileStep env) s₀ s) :
    SequenceInvariant s ∧ ∀ a, a.IsReconciliation →
      (∀ k, ActionChange a (s.tracked k) ((step env s a).tracked k)) ∧
      (∀ k id, s.tracked k = some (.depositReceived, id) →
        (step env s a).tracked k = some (.depositReceived, id)) ∧
      CallsFrom (fun c => ∀ k, c.record = some k → s.tracked k = some (.depositPending, ""))
        s (step env s a) := by
  have hs := reconcileRun_invariant env h₀ hrun
  refine ⟨hs, fun a ha => ?_⟩
  obtain ⟨-, hchange, hcalls⟩ := reconcileStep_effect env hs ha
  refine ⟨hchange, fun k id hk => ActionChange.received (hk ▸ hchange k),
    hcalls.mono fun c hc k hk => ?_⟩
  obtain ⟨id, hid⟩ := hc k hk
  rwa [← hs.pending_id hid]

theorem exampleState_sequenceInvariant (amount : Int) : SequenceInvariant (exampleState amount) :=
  (genesis_sequenceInvariant _ 5).setDeposit (by simp) rfl

theorem reconcile_sequence_run_exampleState :
    SequenceInvariant (exampleState 100) ∧
      SequenceInvariant (step exampleEnv (exampleState 100) (.afterEpochEnd "day" 5)) :=
  ⟨exampleState_sequenceInvariant 100, (reconcile_sequence_run exampleEnv
    (exampleState_sequenceInvariant 100) (.single ⟨.afterEpochEnd "day" 5, trivial, rfl⟩)).1⟩

/-! ## Every run of the keeper -/

theorem SequenceInvariant.createDeposits {s : State} (hs : SequenceInvariant s) (epoch : Int) :
    SequenceInvariant (s.createDeposits env epoch) := by
  unfold State.createDeposits
  exact foldl_rel (fun a a' => SequenceInvariant a → SequenceInvariant a') (fun _ => id)
    (fun _ _ _ h₁ h₂ => h₂ ∘ h₁) (fun a hc _ ha => ha.setDeposit (by simp) rfl) _ hs

theorem SequenceInvariant.updateCValue {s : State} (hs : SequenceInvariant s) (hc : HostChain) :
    SequenceInvariant (s.updateCValue hc) :=
  hs.of_clears (fun _ => le_rfl) fun k => .inl (congrFun (tracked_updateCValue s hc) k)

theorem SequenceInvariant.updateCValues {s : State} (hs : SequenceInvariant s) :
    SequenceInvariant s.updateCValues := by
  unfold State.updateCValues
  exact foldl_rel (fun a a' => SequenceInvariant a → SequenceInvariant a') (fun _ => id)
    (fun _ _ _ h₁ h₂ => h₂ ∘ h₁) (fun a hc _ ha => ha.updateCValue hc) _ hs

theorem beforeEpochStart_invariant {s : State} (hs : SequenceInvariant s)
    (epochIdentifier : String) (epochNumber : Int) :
    SequenceInvariant (beforeEpochStart env epochIdentifier epochNumber s) := by
  have hcreate := hs.createDeposits env epochNumber
  unfold beforeEpochStart
  split_ifs
  · exact hcreate.updateCValues
  · exact hcreate
  · exact hs.updateCValues
  · exact hs

/-- Every action of the keeper keeps the invariant. -/
theorem step_invariant {s : State} (hs : SequenceInvariant s) :
    ∀ a, SequenceInvariant (step env s a)
  | .beforeEpochStart _ _ => beforeEpochStart_invariant env hs _ _
  | .epochTick epochIdentifier n => by
    have hafter := (reconcileStep_effect env hs (a := .afterEpochEnd epochIdentifier n) trivial).1
    refine beforeEpochStart_invariant env ?_ _ _
    split_ifs
    · exact hafter.of_clears (fun _ => le_rfl) fun _ => .inl rfl
    · exact hafter
  | .afterEpochEnd i n => (reconcileStep_effect env hs (a := .afterEpochEnd i n) trivial).1
  | .recvPacket p ack => (reconcileStep_effect env hs (a := .recvPacket p ack) trivial).1
  | .acknowledgePacket p ack err =>
    (reconcileStep_effect env hs (a := .acknowledgePacket p ack err) trivial).1
  | .timeoutPacket p err => (reconcileStep_effect env hs (a := .timeoutPacket p err) trivial).1

/-- From a freshly registered keeper, every run of every action keeps the tracked records'
sequence ids sound. -/
theorem systemRun_sequenceInvariant {hostChains : Table HostChain.chainId} {epoch : Int}
    {s : State} (hrun : Relation.ReflTransGen (SystemStep env) (State.genesis hostChains epoch) s) :
    SequenceInvariant s := by
  induction hrun with
  | refl => exact genesis_sequenceInvariant hostChains epoch
  | tail _ hstep ih =>
    obtain ⟨a, rfl⟩ := hstep
    exact step_invariant env ih a


theorem systemRun_sequenceInvariant_epochTick :
    SequenceInvariant
      (step exampleEnv (State.genesis (Table.empty.set chainC) 5) (.epochTick "day" 5)) :=
  systemRun_sequenceInvariant exampleEnv (.single ⟨_, rfl⟩)

end PstakeNative.LiquidStakeIBC
