import CrossChain.Solana.Program

/-!
# CrossChain.Solana.Escrow

The escrow of an adapter backs its transfers: it holds the value locked, the
fees not withdrawn yet, and what others put there.

Fees are stored nowhere.  The `surplus` of the escrow over `tvl_ld` is the
quantity whose ledger is kept: a send raises it by its fee, a withdrawal
lowers it, and nothing else of the program moves it.
-/

namespace CrossChain

namespace Node

variable (env : Externals)

/-- `oft_fee_ld` of the send of a step. -/
def oftFeeOf (e : Node × Event) : ℕ :=
  match sends env e with
  | some (_, out, _) => out.oftFeeLd.toNat
  | none => 0

/-- `fee_ld` of the withdrawal of a step, to an account other than the
escrow. -/
def withdrawnOf (e : Node × Event) : ℕ :=
  match withdraws env e with
  | some (acc, params) =>
      if acc.tokenDest.pubkey = e.1.store.tokenEscrow then 0 else params.feeLd.toNat
  | none => 0

/-- What a ledger change by others adds to the escrow. -/
def depositOf : Node × Event → ℕ
  | (n, .external tokens) =>
      if n.Permits tokens then
        tokens.balance n.store.tokenEscrow - n.tokens.balance n.store.tokenEscrow
      else 0
  | _ => 0

/-- The escrow is neither the source of a send nor the destination of a
delivery. -/
def KeepsApart (escrow : Pubkey) : Event → Prop
  | .tx ⟨_, _, .send acc _ _⟩ => acc.tokenSource.pubkey ≠ escrow
  | .tx ⟨_, _, .lzReceive accounts _⟩ => ∀ acc remaining,
      LzReceive.Accounts.ofList env accounts = some (acc, remaining) →
        acc.tokenDest.pubkey ≠ escrow
  | _ => True

/-! ## the surplus -/

/-- What the escrow holds beyond the value locked. -/
def surplus (n : Node) : ℕ := n.tokens.balance n.store.tokenEscrow - n.store.tvlLd.toNat

/-- The escrow covers the value locked. -/
def Backed (n : Node) : Prop :=
  n.store.tvlLd.toNat ≤ n.tokens.balance n.store.tokenEscrow

variable {env}

theorem oftFeeOf_eq {e : Node × Event} {params : SendParams} {out : Send.Outcome}
    {receipt : MessagingReceipt} (h : sends env e = some (params, out, receipt)) :
    oftFeeOf env e = out.oftFeeLd.toNat := by
  rw [oftFeeOf, h]

theorem withdrawnOf_eq {e : Node × Event} {acc : WithdrawFee.Accounts}
    {params : WithdrawFeeParams} (h : withdraws env e = some (acc, params)) :
    withdrawnOf env e =
      if acc.tokenDest.pubkey = e.1.store.tokenEscrow then 0 else params.feeLd.toNat := by
  rw [withdrawnOf, h]

/-- One step of an adapter: the escrow stays backed, and the surplus moves by
the step's fee, withdrawal and deposit. -/
theorem Stepped.surplus {n n' : Node} {ev : Event} (h : Stepped env n ev n')
    (hadapter : n.store.oftType = .adapter) (hapart : KeepsApart env n.store.tokenEscrow ev)
    (hbacked : n.Backed) :
    n'.Backed ∧ n'.surplus + withdrawnOf env (n, ev) =
      n.surplus + (oftFeeOf env (n, ev) + depositOf (n, ev)) := by
  unfold Backed Node.surplus at *
  cases h with
  | @send clock endpoint acc remaining params out receipt peer outbound inbound run h =>
      have hcharged := (charged h.amounts).adapter hadapter
      obtain ⟨htvl, hmoved⟩ := h.taken.adapter hadapter
      rw [h.escrow] at hmoved
      have hcredit := hmoved.credited hapart
      have hescrow : out.node.store.tokenEscrow = n.store.tokenEscrow := by rw [h.node]; rfl
      rw [oftFeeOf_eq run, hescrow]
      simp only [withdrawnOf, withdraws, depositOf]
      omega
  | lzReceive run list h =>
      rename_i out acc remaining peer outbound inbound opened amountSd amountLd
      obtain ⟨htvl, hmoved, -⟩ := h.released.adapter hadapter
      rw [h.escrow] at hmoved
      have hdebit := hmoved.debited (hapart acc remaining list).symm
      have hopen := h.opens.balance n.store.tokenEscrow
      have hescrow : out.node.store.tokenEscrow = n.store.tokenEscrow := by rw [h.node]; rfl
      rw [hescrow]
      simp only [withdrawnOf, withdraws, oftFeeOf, sends, depositOf]
      omega
  | withdrawFee run h =>
      rename_i clock endpoint acc params
      have hcovered := h.covered
      have hstore : n'.store = n.store := by rw [h.node]
      rw [withdrawnOf_eq run, hstore]
      simp only [oftFeeOf, sends, depositOf]
      split
      · next hself =>
        rw [h.moved.balance_of_self hself.symm]
        omega
      · next hother =>
        have hdebit := h.moved.debited (Ne.symm hother)
        omega
  | external h =>
      rename_i tokens
      have hle := h.2
      simp only [withdrawnOf, withdraws, oftFeeOf, sends, depositOf, if_pos h]
      omega
  | setOftConfig h =>
      have htokens : n'.tokens = n.tokens := by rw [h.node]
      have hescrow : n'.store.tokenEscrow = n.store.tokenEscrow :=
        congrArg (fun o => o.2.2.2.1) h.origin
      rw [htokens, hescrow, h.tvlLd]
      exact ⟨hbacked, rfl⟩
  | setPeerConfig run h =>
      rw [h.node]
      exact ⟨hbacked, rfl⟩
  | setPause => exact ⟨hbacked, rfl⟩
  | idle h =>
      have hdeposit : depositOf (n, ev) = 0 := by
        cases ev with
        | tx => rfl
        | external tokens => exact if_neg (h.external tokens rfl)
      simp only [withdrawnOf, h.withdraws, oftFeeOf, h.sends, hdeposit]
      exact ⟨hbacked, trivial⟩

/-! ## whole runs -/

/-- What a run of an adapter keeps. -/
structure BackedAdapter (escrow : Pubkey) (n : Node) : Prop where
  oftType : n.store.oftType = .adapter
  tokenEscrow : n.store.tokenEscrow = escrow
  backed : n.Backed

theorem BackedAdapter.step {escrow : Pubkey} {n : Node} {ev : Event} (h : BackedAdapter escrow n)
    (hapart : KeepsApart env escrow ev) : BackedAdapter escrow (n.step env ev) := by
  have hstep := stepped env n ev
  exact ⟨(congrArg (fun o => o.1) hstep.origin).trans h.oftType,
    (congrArg (fun o => o.2.2.2.1) hstep.origin).trans h.tokenEscrow,
    (hstep.surplus h.oftType (h.tokenEscrow ▸ hapart) h.backed).1⟩

/-- The escrow ledger of an adapter: in every state a run from `init_oft`
reaches, the escrow holds the value locked, plus the fees of all sends and
all deposits, less what was withdrawn.  So the escrow covers the value
locked, `token_escrow.amount - tvl_ld` never underflows, and withdrawals
never exceed fees and deposits. -/
theorem escrow_ledger (env : Externals) (endpoint : Endpoint) (tokens : Tokens)
    (acc : InitOFT.Accounts) (remaining : List LzAccount) (params : InitOFTParams) (n : Node)
    (hinit : InitOFT.apply env endpoint tokens acc remaining params = .ok n)
    (hadapter : params.oftType = .adapter) (events : List Event)
    (hapart : ∀ ev ∈ events, KeepsApart env n.store.tokenEscrow ev) :
    let steps := Run.trace (step env) n events
    let m := Run.final (step env) n events
    m.tokens.balance m.store.tokenEscrow + (steps.map (withdrawnOf env)).sum =
        m.store.tvlLd.toNat + (steps.map (oftFeeOf env)).sum + (steps.map depositOf).sum ∧
      m.store.tvlLd.toNat ≤ m.tokens.balance m.store.tokenEscrow ∧
      (∀ a, m.tokens.accounts m.store.tokenEscrow = some a →
        a.amount.checkedSub m.store.tvlLd ≠ none) ∧
      (steps.map (withdrawnOf env)).sum ≤
        (steps.map (oftFeeOf env)).sum + (steps.map depositOf).sum := by
  intro steps m
  have h0 := InitOFT.initialized hinit
  have hstart : BackedAdapter n.store.tokenEscrow n :=
    ⟨h0.oftType.trans hadapter, rfl, by simp [Backed, h0.tvlLd]⟩
  have hkeep : ∀ (k : Node) (ev : Event), BackedAdapter n.store.tokenEscrow k →
      KeepsApart env n.store.tokenEscrow ev → BackedAdapter n.store.tokenEscrow (k.step env ev) :=
    fun k ev hk hev => hk.step hev
  have hledger : m.surplus + (steps.map (withdrawnOf env)).sum =
      n.surplus + (steps.map fun e => oftFeeOf env e + depositOf e).sum :=
    Run.ledger hkeep (fun k ev hk hev =>
      ((stepped env k ev).surplus hk.oftType (hk.tokenEscrow ▸ hev) hk.backed).2) hstart hapart
  have hend : BackedAdapter n.store.tokenEscrow m := Run.final_inv hkeep hstart hapart
  have hzero : n.surplus = 0 := by rw [Node.surplus, h0.escrow, Nat.zero_sub]
  have hbacked : m.store.tvlLd.toNat ≤ m.tokens.balance m.store.tokenEscrow := hend.backed
  rw [List.sum_map_add, hzero, Node.surplus] at hledger
  refine ⟨by omega, hbacked, ?_, by omega⟩
  intro a ha hnone
  rw [UInt64.checkedSub_eq_none] at hnone
  rw [Tokens.balance_of_accounts ha] at hbacked
  omega

/-- A send through an adapter whose mint takes 1% up to 5000 and which
charges 1% itself, and a withdrawal of part of the fee. -/
def escrowRun : List Event := [
  .sample 0 (.sampleSetPeer 30101 (.peerAddress (Pubkey.ofByte 40))),
  .sample 0 (.sampleSetPeer 30101 (.feeBps (some 100))),
  .sample 0 (.sampleSend 30101 2000500),
  .sample 0 (.sampleWithdraw 7000)]

def escrowTokens : Tokens := .sample 5000000 .default (some ⟨5000, 100, by decide⟩)

theorem escrow_ledger_example :
    let n := sample .adapter escrowTokens
    let m := Run.final (step .sample) n escrowRun
    m.tokens.balance m.store.tokenEscrow = m.store.tvlLd.toNat + 12000 ∧
      m.store.tvlLd.toNat ≤ m.tokens.balance m.store.tokenEscrow := by
  have hinit : InitOFT.apply .sample .sample escrowTokens .sample []
      ⟨.adapter, .ofByte 13, 6, none⟩ = .ok (sample .adapter escrowTokens) := rfl
  have hapart : ∀ ev ∈ escrowRun, KeepsApart .sample (.ofByte 12) ev := by
    simp only [escrowRun, List.forall_mem_cons]
    refine ⟨trivial, trivial, ?_, trivial, by simp⟩
    show Pubkey.ofByte 21 ≠ Pubkey.ofByte 12
    decide
  have hledger := escrow_ledger _ _ _ _ _ _ _ hinit rfl escrowRun hapart
  exact ⟨by decide +kernel, hledger.2.1⟩

end Node

end CrossChain
